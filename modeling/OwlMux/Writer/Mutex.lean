/-
Mutual exclusion in a `WriterScope`, and what is known of the writer pointer at each place of the code under the mutexes.

Only the holder of the state mutex changes the pointer, so a fact an attachment has checked about it stays true until
the attachment itself acts. `Fact` says what holds at each place; `Inv` says it of every attachment, together with the
agreement of the two mutexes and the places. One rule (`Inv.put`) covers every step: an attachment moves, takes a mutex
only when it is free, and changes the pointer only under the mutex.

Results:
- `step_inv`, `run_inv`: the invariant, for every schedule;
- `Inv.holder`: at most one attachment is inside a block.
-/
import Mathlib.Tactic
import OwlMux.Writer.Scope

namespace OwlMux.Writer

open OwlMux.Relay (Uuid Text)

/-! ## Facts -/

/-- the request a block answers still carries the attachment's epochs -/
def Task.Fresh (epoch : ℤ) (a : Attachment) : Task → Prop
  | .create stamp _ | .claim _ stamp _ => a.stale epoch stamp = false
  | .operate stamp _ => a.workspace.matches epoch stamp = true
  | .claimControl _ stamp _ => stamp.epoch = a.workspace.epoch ∧ matchesConnectionEpoch stamp.connectionEpoch epoch = true
  | _ => True

/-- the two claims -/
def Task.claims : Task → Bool
  | .claim .. | .claimControl .. => true
  | _ => false

/-- the blocks that set the flags of their own client -/
def Task.flags : Task → Bool
  | .enter | .claimControl .. => true
  | _ => false

/-- the blocks that answer a mutation request -/
def Task.mutates : Task → Bool
  | .create .. | .operate .. => true
  | _ => false

/-- the pointer is another attachment's, registered with channel `old` -/
def Replaces (x : Uuid) (current : Option Handle) (old : Sender) : Prop :=
  ∃ h, current = some h ∧ h.control = some old ∧ h.attachment = old.attachment ∧ old.attachment ≠ x

theorem Replaces.ne {x : Uuid} {c : Option Handle} {old : Sender} (h : Replaces x c old) : old.attachment ≠ x := by
  obtain ⟨g, -, -, -, hne⟩ := h
  exact hne

/-- what is known of the pointer and of `current_route` at a place -/
def At.Fact (x : Uuid) (current : Option Handle) (checked : Bool) (t : Task) : At → Prop
  | .start => t = .enter → checked = true
  | .demoteSend old | .demoteWait old _ | .demoted old _ =>
    t.claims = true ∧ checked = true ∧ Replaces x current old
  | .setWriter (some old) _ | .wrote (some old) _ =>
    t.flags = true ∧ t ≠ .enter ∧ checked = true ∧ Replaces x current old
  | .setWriter none _ | .wrote none _ =>
    t.flags = true ∧ checked = true ∧ (t = .enter → isCurrent x current = true) ∧
      (t ≠ .enter → isCurrent x current = false ∧ current.bind Handle.control = none)
  | .resize old | .resized old _ =>
    t.flags = true ∧ checked = true ∧ isCurrent x current = true ∧ ∀ k, old = some k → k.attachment ≠ x ∧ t ≠ .enter
  | .mutate | .mutated _ => t.mutates = true ∧ checked = true ∧ isCurrent x current = true
  | .closeOld old r =>
    t.claims = true ∧ current = none ∧ old.attachment ≠ x ∧ ∀ r', r = some r' → r'.outcome ≠ .succeeded
  | .project | .projected _ => t.inWorkspace = true ∧ (t.claims = true → isCurrent x current = true)
  | .announce _ => t.mutates = true ∧ t.inWorkspace = true
  -- a claim reports success only as the current writer
  | .reply r _ =>
    (t.claims = true ∨ t.mutates = true) ∧ (t.claims = true → r.outcome = .succeeded → isCurrent x current = true)

def At.isReply : At → Bool
  | .reply .. => true
  | _ => false

/-- what is known of an attachment at its place -/
def Fact (epoch : ℤ) (x : Uuid) (current : Option Handle) (checked : Bool) (a : Attachment) : Prop :=
  match a.pc with
  | .waiting t | .locking t => t.Fresh epoch a
  | .critical t p => (p.isReply = false → t.Fresh epoch a) ∧ p.Fact x current checked t
  | _ => True

/-- a registered channel belongs to the attachment of the pointer -/
def Owned (c : Option Handle) : Prop := ∀ h, c = some h → ∀ k, h.control = some k → k.attachment = h.attachment

structure Inv (s : St) : Prop where
  dispatch : Mutex.Agree s.dispatch fun x => (s.att x).pc.holdsDispatch
  state : Mutex.Agree s.state fun x => (s.att x).pc.holdsState
  control : Owned s.current
  fact : ∀ x, Fact s.connectionEpoch x s.current s.checked (s.att x)

theorem inv_init (epoch : ℤ) : Inv (init epoch) := by
  refine ⟨?_, ?_, ?_, ?_⟩
  · simp [Mutex.Agree, init, Attachment.init, Pc.holdsDispatch]
  · simp [Mutex.Agree, init, Attachment.init, Pc.holdsState]
  · simp [Owned, init]
  · intro x
    trivial

variable {s s' : St} {x y : Uuid}

theorem Pc.holdsDispatch_of_holdsState {pc : Pc} (h : pc.holdsState = true) : pc.holdsDispatch = true := by
  cases pc <;> simp_all [Pc.holdsState, Pc.holdsDispatch]

/-- a fact about the pointer is only kept under the state mutex -/
theorem fact_of_not_holdsState {epoch : ℤ} {c c' : Option Handle} {k k' : Bool} {a : Attachment}
    (h : a.pc.holdsState = false) (hf : Fact epoch x c k a) : Fact epoch x c' k' a := by
  unfold Fact at *
  cases hp : a.pc <;> simp_all [Pc.holdsState]

/-- **At most one attachment is inside a block.** -/
theorem Inv.holder (h : Inv s) (hx : (s.att x).pc.holdsDispatch = true) (hy : (s.att y).pc.holdsDispatch = true) : x = y :=
  h.dispatch.unique hx hy

/-! ## The rule for a step -/

/-- `s'` differs from `s` at most in the pointer, the ghost and the oneshot channels -/
structure Same (s s' : St) : Prop where
  att : s'.att = s.att
  dispatch : s'.dispatch = s.dispatch
  state : s'.state = s.state
  epoch : s'.connectionEpoch = s.connectionEpoch

theorem put_att_self (s : St) (x : Uuid) (a : Attachment) : (s.put x a).att x = a := Function.update_self ..

theorem put_att_of_ne (h : y ≠ x) (a : Attachment) : (s.put x a).att y = s.att y := Function.update_of_ne h ..

/-- **Step rule.** An attachment moves: it takes a mutex only when that is free, and unless it holds or takes the
dispatch mutex it leaves the pointer alone. -/
theorem Inv.put {k : Bool} {c : Option Handle} {n : ℕ} {f : Uuid → ℕ → Option Outcome} (h : Inv s) {a : Attachment}
    (hd : a.pc.holdsDispatch = true → (s.att x).pc.holdsDispatch = true ∨ s.dispatch = none)
    (hl : a.pc.holdsState = true → (s.att x).pc.holdsState = true ∨ s.state = none)
    (hc : (c = s.current ∧ k = s.checked) ∨ (s.att x).pc.holdsDispatch = true ∨ s.dispatch = none) (hk : Owned c)
    (hf : Fact s.connectionEpoch x c k a) : Inv ({ s with checked := k, current := c, next := n, answered := f }.put x a) := by
  have hplace : ∀ g : Pc → Bool, (fun y => g ((s.put x a).att y).pc) =
      Function.update (fun y => g (s.att y).pc) x (g a.pc) := by
    intro g
    funext y
    by_cases hy : y = x
    · subst hy; rw [put_att_self, Function.update_self]
    · rw [put_att_of_ne hy, Function.update_of_ne hy]
  refine ⟨?_, ?_, hk, fun y => ?_⟩
  · show Mutex.Agree _ fun y => ((s.put x a).att y).pc.holdsDispatch
    rw [hplace Pc.holdsDispatch]
    exact Mutex.agree_hand h.dispatch hd
  · show Mutex.Agree _ fun y => ((s.put x a).att y).pc.holdsState
    rw [hplace Pc.holdsState]
    exact Mutex.agree_hand h.state hl
  · show Fact s.connectionEpoch y c k ((s.put x a).att y)
    by_cases hy : y = x
    · subst hy; rw [put_att_self]; exact hf
    · rw [put_att_of_ne hy]
      rcases hc with ⟨h1, h2⟩ | hx | hx
      · rw [h1, h2]; exact h.fact y
      · refine fact_of_not_holdsState (Bool.eq_false_iff.2 fun hyd => ?_) (h.fact y)
        exact hy (h.holder (Pc.holdsDispatch_of_holdsState hyd) hx)
      · refine fact_of_not_holdsState (Bool.eq_false_iff.2 fun hyd => ?_) (h.fact y)
        exact h.dispatch.ne_none (Pc.holdsDispatch_of_holdsState hyd) hx

/-! ## The pointer operations -/

theorem owned_none : Owned none := by simp [Owned]

theorem owned_some_none (x : Uuid) (size : ClientSize) : Owned (some ⟨x, size, none⟩) := by simp [Owned]

theorem owned_some_sender (s : St) (x : Uuid) (size : ClientSize) : Owned (some ⟨x, size, some (s.sender x)⟩) := by
  simp [Owned, St.sender]

theorem Owned.modifyCurrent {c : Option Handle} (h : Owned c) {f : Handle → Handle}
    (hf : ∀ g, g.attachment = x → Owned (some g) → Owned (some (f g))) : Owned (modifyCurrent x f c) := by
  cases c with
  | none => exact owned_none
  | some g =>
    unfold Writer.modifyCurrent
    simp only [Option.map_some]
    split_ifs with hx
    · exact hf g hx h
    · exact h

theorem Owned.updateSize {c : Option Handle} (h : Owned c) (size : ClientSize) : Owned (updateSize x size c) :=
  h.modifyCurrent fun g _ hg => by simpa [Owned] using hg

theorem Owned.clearControl {c : Option Handle} (h : Owned c) : Owned (clearControl x c) :=
  h.modifyCurrent fun g _ _ => by simp [Owned]

theorem Owned.setControl {c : Option Handle} (h : Owned c) (s : St) : Owned (setControl x (s.sender x) c) :=
  h.modifyCurrent fun g hg _ => by simp [Owned, St.sender, hg]

theorem Owned.clearIfCurrent {c : Option Handle} (h : Owned c) : Owned (clearIfCurrent x c) := by
  unfold Writer.clearIfCurrent
  split_ifs
  · exact owned_none
  · exact h

theorem isCurrent_modifyCurrent (f : Handle → Handle) (hf : ∀ g, (f g).attachment = g.attachment) (y : Uuid)
    (c : Option Handle) : isCurrent x (modifyCurrent y f c) = isCurrent x c := by
  cases c with
  | none => rfl
  | some g =>
    simp only [isCurrent, modifyCurrent, Option.map_some, Option.any_some]
    split_ifs
    · rw [hf]
    · rfl

@[simp]
theorem isCurrent_updateSize (size : ClientSize) (c : Option Handle) : isCurrent x (updateSize y size c) = isCurrent x c :=
  isCurrent_modifyCurrent (fun g => { g with size := size }) (fun _ => rfl) y c

@[simp]
theorem isCurrent_setControl (k : Sender) (c : Option Handle) : isCurrent x (setControl y k c) = isCurrent x c :=
  isCurrent_modifyCurrent (fun g => { g with control := some k }) (fun _ => rfl) y c

@[simp]
theorem isCurrent_some (size : ClientSize) (k : Option Sender) : isCurrent x (some ⟨x, size, k⟩) = true := by simp [isCurrent]

theorem isCurrent_unique {c : Option Handle} (hx : isCurrent x c = true) (hy : isCurrent y c = true) : x = y := by
  cases c with
  | none => simp [isCurrent] at hx
  | some g => exact (beq_iff_eq.1 hx).symm.trans (beq_iff_eq.1 hy)

theorem replaces_of_control {c : Option Handle} {old : Sender} (h : Owned c) (hx : isCurrent x c = false)
    (hc : c.bind Handle.control = some old) : Replaces x c old := by
  obtain ⟨g, rfl, hg⟩ := Option.bind_eq_some_iff.1 hc
  have ho := h g rfl old hg
  refine ⟨g, rfl, hg, ho.symm, ?_⟩
  rw [ho]
  simpa [isCurrent] using hx

/-! ## The steps -/

/-- **Inside a block** only the pointer's owner and the facts at the new place are left to show. -/
theorem Inv.within {k : Bool} {c : Option Handle} {n : ℕ} {f : Uuid → ℕ → Option Outcome} (h : Inv s) {t : Task} {p : At}
    (hpc : (s.att x).pc = .critical t p) {a : Attachment} (hk : Owned c) (hf : Fact s.connectionEpoch x c k a) :
    Inv ({ s with checked := k, current := c, next := n, answered := f }.put x a) :=
  h.put (fun _ => Or.inl (by rw [hpc]; rfl)) (fun _ => Or.inl (by rw [hpc]; rfl)) (Or.inr (Or.inl (by rw [hpc]; rfl))) hk hf

/-- a place without mutexes at which nothing is known -/
def Pc.quiet : Pc → Bool
  | .waiting .enter | .waiting (.leave _) | .waiting .release => true
  | .waiting _ | .refreshing | .locking _ | .critical .. => false
  | _ => true

theorem fact_of_quiet {epoch : ℤ} {c : Option Handle} {k : Bool} {a : Attachment} (h : a.pc.quiet = true) :
    Fact epoch x c k a := by
  unfold Fact
  cases hp : a.pc with
  | waiting t => cases t <;> simp_all [Pc.quiet, Task.Fresh]
  | critical => simp_all [Pc.quiet]
  | locking => simp_all [Pc.quiet]
  | _ => trivial

theorem Pc.quiet_holds {pc : Pc} (h : pc.quiet = true) : pc.holdsDispatch = false ∧ pc.holdsState = false := by
  cases pc <;> simp_all [Pc.quiet, Pc.holdsDispatch, Pc.holdsState]

/-- an attachment moves to such a place, without or after changing the pointer -/
theorem Inv.settle {k : Bool} {c : Option Handle} {n : ℕ} {f : Uuid → ℕ → Option Outcome} (h : Inv s) {a : Attachment}
    (hq : a.pc.quiet = true)
    (hc : (c = s.current ∧ k = s.checked) ∨ (s.att x).pc.holdsDispatch = true ∨ s.dispatch = none) (hk : Owned c) :
    Inv ({ s with checked := k, current := c, next := n, answered := f }.put x a) :=
  h.put (fun ha => by simp [(Pc.quiet_holds hq).1] at ha) (fun ha => by simp [(Pc.quiet_holds hq).2] at ha) hc hk
    (fact_of_quiet hq)

theorem quiet_exit (a : Attachment) (e : Exit) : (a.exit e).pc.quiet = true := by
  cases e <;> simp only [Attachment.exit] <;> split_ifs <;> rfl

/-- leaving a handler -/
theorem Inv.exit {k : Bool} {c : Option Handle} (h : Inv s) (e : Exit)
    (hc : (c = s.current ∧ k = s.checked) ∨ (s.att x).pc.holdsDispatch = true ∨ s.dispatch = none) (hk : Owned c) :
    Inv ({ s with checked := k, current := c }.exit x e) :=
  h.settle (quiet_exit _ e) hc hk

theorem Inv.leave (h : Inv s) (x : Uuid) (e : Exit) : Inv (s.exit x e) :=
  h.exit e (Or.inl ⟨rfl, rfl⟩) h.control

/-- directives and flags are no part of a fact -/
theorem fact_congr {epoch : ℤ} {c : Option Handle} {k : Bool} {a b : Attachment} (hp : b.pc = a.pc)
    (he : b.selectionEpoch = a.selectionEpoch) (hw : b.workspace = a.workspace) (h : Fact epoch x c k a) :
    Fact epoch x c k b := by
  have hfresh : ∀ t : Task, t.Fresh epoch a → t.Fresh epoch b := by
    intro t ht
    cases t <;> simp_all [Task.Fresh, Attachment.stale]
  unfold Fact at *
  rw [hp]
  cases hpc : a.pc with
  | waiting t => rw [hpc] at h; exact hfresh t h
  | locking t => rw [hpc] at h; exact hfresh t h
  | critical t p =>
    rw [hpc] at h
    exact ⟨fun hp => hfresh t (h.1 hp), h.2⟩
  | _ => trivial

theorem Inv.deliver (h : Inv s) (k : Sender) (d : Directive) : Inv (s.deliver k d) := by
  have hpc : ∀ y, ((s.deliver k d).att y).pc = (s.att y).pc := by
    intro y
    by_cases hy : y = k.attachment
    · subst hy; simp [St.deliver, Attachment.push]
    · simp [St.deliver, Function.update_of_ne hy]
  refine ⟨?_, ?_, h.control, fun y => ?_⟩
  · show Mutex.Agree s.dispatch _
    simpa only [hpc] using h.dispatch
  · show Mutex.Agree s.state _
    simpa only [hpc] using h.state
  · refine fact_congr (hpc y) ?_ ?_ (h.fact y)
    all_goals
      by_cases hy : y = k.attachment
      · subst hy; simp [St.deliver, Attachment.push]
      · simp [St.deliver, Function.update_of_ne hy]

/-- what is known at a place -/
theorem Inv.place (h : Inv s) {t : Task} {p : At} (hpc : (s.att x).pc = .critical t p) :
    (p.isReply = false → t.Fresh s.connectionEpoch (s.att x)) ∧ p.Fact x s.current s.checked t := by
  have hf := h.fact x
  simpa only [Fact, hpc] using hf

/-- from place to place inside a block -/
theorem Inv.goto {k : Bool} {c : Option Handle} {n : ℕ} {f : Uuid → ℕ → Option Outcome} (h : Inv s) {t : Task} {p q : At}
    (hpc : (s.att x).pc = .critical t p) (hp : p.isReply = false) (hk : Owned c) (hq : q.Fact x c k t) :
    Inv ({ s with checked := k, current := c, next := n, answered := f }.goto x (.critical t q)) := by
  refine h.within hpc hk ⟨fun _ => ?_, hq⟩
  have := (h.place hpc).1 hp
  cases t <;> exact this

theorem Inv.exitWithin {c : Option Handle} (h : Inv s) {t : Task} {p : At} (hpc : (s.att x).pc = .critical t p) (e : Exit)
    (hk : Owned c) : Inv ({ s with current := c }.exit x e) :=
  h.exit e (Or.inr (Or.inl (by rw [hpc]; rfl))) hk

theorem reply_fact {c : Option Handle} {k : Bool} {t : Task} {r : Reply} {e : Exit}
    (h : t.mutates = true ∨ t.claims = true ∧ (r.outcome = .succeeded → isCurrent x c = true)) :
    (At.reply r e).Fact x c k t := by
  refine ⟨h.symm.imp And.left id, fun ht hr => ?_⟩
  rcases h with h | h
  · cases t <;> simp_all [Task.mutates, Task.claims]
  · exact h.2 hr

theorem transitionFailed_ne (o : Outcome) : (transitionFailed o).outcome ≠ .succeeded := by cases o <;> simp [transitionFailed]

theorem start_inv (h : Inv s) {t : Task} (hpc : (s.att x).pc = .critical t .start) : Inv (start s x t) := by
  have hc := h.control
  cases t with
  | create stamp name =>
    simp only [start]
    split_ifs with h1 h2
    · exact h.goto hpc rfl hc (reply_fact (Or.inl rfl))
    · exact h.goto hpc rfl hc (reply_fact (Or.inl rfl))
    · exact h.goto hpc rfl hc ⟨rfl, rfl, by simpa using h1⟩
  | claim takeover stamp size =>
    simp only [start]
    split_ifs with h1 h2 h3
    · exact h.leave x .close
    · exact h.goto hpc rfl (hc.updateSize size) (reply_fact (Or.inr ⟨rfl, fun _ => by simpa using h2⟩))
    · exact h.goto hpc rfl hc (reply_fact (Or.inr ⟨rfl, by simp [writerBusy]⟩))
    · have hx : isCurrent x s.current = false := by simpa using h2
      cases hk : s.current.bind Handle.control with
      | some old => exact h.goto hpc rfl hc ⟨rfl, rfl, replaces_of_control hc hx hk⟩
      | none => exact h.goto hpc rfl (owned_some_none x size) (reply_fact (Or.inr ⟨rfl, fun _ => by simp⟩))
  | enter =>
    have hchk : s.checked = true := (h.place hpc).2 rfl
    simp only [start]
    split_ifs with h1
    · exact h.goto hpc rfl hc ⟨rfl, hchk, fun _ => h1, fun hne => (hne rfl).elim⟩
    · exact h.goto hpc rfl hc ⟨rfl, by simp [Task.claims]⟩
  | operate stamp op =>
    simp only [start]
    split_ifs with h1 h2
    · exact h.goto hpc rfl hc (reply_fact (Or.inl rfl))
    · exact h.leave x .close
    · have hx : isCurrent x s.current = true := by simpa using h1
      cases op with
      | workspaceRefresh => exact h.goto hpc rfl hc ⟨rfl, by simp [Task.claims]⟩
      | _ => exact h.goto hpc rfl hc ⟨rfl, rfl, hx⟩
  | claimControl takeover stamp size =>
    simp only [start]
    split_ifs with h1 h2 h3
    · exact h.leave x .close
    · exact h.goto hpc rfl hc (reply_fact (Or.inr ⟨rfl, by simp [writerBusy]⟩))
    · exact h.goto hpc rfl ((hc.updateSize size).setControl s) ⟨rfl, rfl, by simpa using h3, by simp⟩
    · have hx : isCurrent x s.current = false := by simpa using h3
      cases hk : s.current.bind Handle.control with
      | some old => exact h.goto hpc rfl hc ⟨rfl, rfl, replaces_of_control hc hx hk⟩
      | none => exact h.goto hpc rfl hc ⟨rfl, rfl, by simp, fun _ => ⟨hx, hk⟩⟩
  | leave close =>
    have hq : (if close = true then Pc.waiting .release else .connecting).quiet = true := by cases close <;> rfl
    exact h.settle hq (Or.inr (Or.inl (by rw [hpc]; rfl))) hc.clearControl
  | release =>
    exact h.settle rfl (Or.inr (Or.inl (by rw [hpc]; rfl))) hc.clearIfCurrent

theorem giveUp_inv (h : Inv s) {t : Task} {p : At} (hpc : (s.att x).pc = .critical t p) (hp : p.isReply = false)
    (ht : t.claims = true) (old : Option Sender) (r : Option Reply)
    (hr : ∀ r', r = some r' → r'.outcome ≠ .succeeded) (ho : ∀ k, old = some k → k.attachment ≠ x)
    {c : Option Handle} (hn : c = none) : Inv (giveUp { s with current := c } x t old r) := by
  have hk : Owned c := hn ▸ owned_none
  cases old with
  | some k => exact h.goto hpc hp hk ⟨ht, hn, ho k rfl, hr⟩
  | none =>
    cases r with
    | some r => exact h.goto hpc hp hk (reply_fact (Or.inr ⟨ht, fun h => (hr r rfl h).elim⟩))
    | none => exact h.exitWithin hpc .close hk

theorem isCurrent_clearIfCurrent_self (c : Option Handle) : isCurrent x (clearIfCurrent x c) = false := by
  unfold clearIfCurrent
  split_ifs with h
  · rfl
  · simpa using h

/-- of its own handle -/
example : isCurrent 1 (clearIfCurrent 1 (some ⟨1, ⟨80, 24⟩, none⟩)) = false := by decide +kernel

theorem clearIfCurrent_eq_none {c : Option Handle} (h : isCurrent x c = true) : clearIfCurrent x c = none := by
  simp [clearIfCurrent, h]

theorem proceed_inv (h : Inv s) {t : Task} {p : At} (hpc : (s.att x).pc = .critical t p) : Inv (proceed s x t p) := by
  have hc := h.control
  cases p with
  | start => exact start_inv h hpc
  | demoteSend old =>
    have hf := (h.place hpc).2
    simp only [proceed]
    split_ifs
    · exact h.goto hpc rfl hc hf
    · refine Inv.deliver ?_ _ _
      exact h.goto hpc rfl hc hf
  | demoteWait old response =>
    exact h.goto hpc rfl hc (h.place hpc).2
  | demoted old outcome =>
    obtain ⟨ht, hchk, hr⟩ := (h.place hpc).2
    simp only [proceed]
    split_ifs with h1 h2
    · exact h.goto hpc rfl owned_none ⟨ht, rfl, hr.ne, by simp⟩
    · exact h.goto hpc rfl owned_none ⟨ht, rfl, hr.ne, by simpa using transitionFailed_ne outcome⟩
    · cases t with
      | claim takeover stamp size => exact h.goto hpc rfl (owned_some_none x size) (reply_fact (Or.inr ⟨rfl, fun _ => by simp⟩))
      | claimControl => exact h.goto hpc rfl hc ⟨rfl, by simp, hchk, hr⟩
      | _ => simp [Task.claims] at ht
  | closeOld old r =>
    have hnext : Inv (afterClose s x t r) := by
      cases r with
      | none => exact h.leave x .close
      | some r =>
        obtain ⟨ht, -, -, hr⟩ := (h.place hpc).2
        cases t <;> exact h.goto hpc rfl hc (reply_fact (Or.inr ⟨ht, fun h => (hr r rfl h).elim⟩))
    simp only [proceed]
    split_ifs
    · exact hnext
    · exact h
    · exact hnext.deliver _ _
  | wrote old outcome =>
    have hf := (h.place hpc).2
    cases t with
    | enter =>
      have hcur : isCurrent x s.current = true ∧ s.checked = true := by
        cases old with
        | none => exact ⟨hf.2.2.1 rfl, hf.2.1⟩
        | some => exact (hf.2.1 rfl).elim
      simp only [proceed]
      split_ifs
      · exact h.exitWithin hpc .chooser hc.clearIfCurrent
      · exact h.goto hpc rfl (hc.setControl s) ⟨rfl, hcur.2, by simpa using hcur.1, by simp⟩
      · exact h.goto hpc rfl (hc.setControl s) ⟨rfl, by simp [Task.claims]⟩
    | claimControl takeover stamp size =>
      have hchk : s.checked = true := by
        cases old with
        | none => exact hf.2.1
        | some => exact hf.2.2.1
      have ho : ∀ k, old = some k → k.attachment ≠ x := by
        rintro k rfl
        exact hf.2.2.2.ne
      have ho' : ∀ k, old = some k → k.attachment ≠ x ∧ Task.claimControl takeover stamp size ≠ .enter := fun k hk => ⟨ho k hk, by simp⟩
      simp only [proceed]
      split_ifs
      · exact giveUp_inv h hpc rfl rfl old none (by simp) ho rfl
      · exact giveUp_inv h hpc rfl rfl old _ (by simpa using transitionFailed_ne outcome) ho rfl
      · exact h.goto hpc rfl (owned_some_sender s x size) ⟨rfl, hchk, by simp, ho'⟩
    | _ => exact h
  | resized old outcome =>
    obtain ⟨-, -, hcur, ho⟩ := (h.place hpc).2
    cases t with
    | enter =>
      simp only [proceed]
      split_ifs
      · exact h.exitWithin hpc .chooser hc.clearIfCurrent
      · exact h.goto hpc rfl hc ⟨rfl, fun _ => hcur⟩
    | claimControl =>
      simp only [proceed]
      split_ifs
      · exact giveUp_inv h hpc rfl rfl old none (by simp) (fun k hk => (ho k hk).1) (clearIfCurrent_eq_none hcur)
      · exact giveUp_inv h hpc rfl rfl old _ (by simpa using transitionFailed_ne outcome) (fun k hk => (ho k hk).1) (clearIfCurrent_eq_none hcur)
      · exact h.goto hpc rfl hc ⟨rfl, fun _ => hcur⟩
    | _ => exact h
  | mutated outcome =>
    have ht := (h.place hpc).2.1
    simp only [proceed]
    split_ifs
    · exact h.exitWithin hpc .close hc.clearIfCurrent
    · cases outcome with
      | succeeded =>
        cases t with
        | operate stamp op =>
          cases op with
          | clientResize size => exact h.goto hpc rfl (hc.updateSize size) ⟨ht, rfl⟩
          | windowSelect | paneSelect => exact h.goto hpc rfl hc ⟨ht, rfl⟩
          | _ => exact h.goto hpc rfl hc (reply_fact (Or.inl ht))
        | _ => exact h.goto hpc rfl hc (reply_fact (Or.inl ht))
      | failed => cases t <;> exact h.goto hpc rfl hc (reply_fact (Or.inl ht))
      | ambiguous =>
        cases t with
        | create => exact h.goto hpc rfl owned_none (reply_fact (Or.inl ht))
        | _ => exact h.goto hpc rfl hc.clearIfCurrent (reply_fact (Or.inl ht))
  | projected w =>
    have hw : ∀ w', Inv (s.put x { s.att x with workspace := w', pc := .workspace }) := fun w' =>
      h.settle rfl (Or.inl ⟨rfl, rfl⟩) hc
    have hr : ∀ w' r, t ≠ .enter →
        Inv (s.put x { s.att x with workspace := w', pc := .critical t (.reply r .resume) }) := by
      intro w' r ht
      obtain ⟨hin, hcl⟩ := (h.place hpc).2
      refine h.within hpc hc ⟨by simp [At.isReply], ?_, fun ht _ => hcl ht⟩
      cases t <;> simp_all [Task.inWorkspace, Task.claims, Task.mutates]
    have hclear : ∀ e, Inv ({ s with current := clearIfCurrent x s.current }.exit x e) := fun e =>
      h.exitWithin hpc e hc.clearIfCurrent
    cases t with
    | enter =>
      simp only [proceed]
      split_ifs
      · exact hclear .close
      · cases w with
        | none => exact h.leave x .chooser
        | some w => exact hw w
    | claimControl =>
      cases w with
      | none => exact h
      | some w =>
        simp only [proceed]
        split_ifs
        · exact hclear .close
        · exact hr w _ (by simp)
    | operate stamp op =>
      cases w with
      | none => exact h
      | some w =>
        simp only [proceed]
        split_ifs
        · exact h.leave x .close
        · cases op with
          | workspaceRefresh => exact hr w _ (by simp)
          | _ => exact hw w
    | _ => exact h
  | _ => exact h

theorem command_inv (h : Inv s) (x : Uuid) (answer : Answer) : Inv (command s x answer) := by
  have hc := h.control
  unfold command
  split
  · -- the first command of a demotion
    split_ifs
    · exact h.settle rfl (Or.inl ⟨rfl, rfl⟩) hc
    · exact h.settle (quiet_exit _ .chooser) (Or.inl ⟨rfl, rfl⟩) hc
  · -- the second
    split_ifs
    · exact h.settle (quiet_exit _ .resume) (Or.inl ⟨rfl, rfl⟩) hc
    · exact h.settle (quiet_exit _ .chooser) (Or.inl ⟨rfl, rfl⟩) hc
  · -- the first command of `set_writer(true)`
    rename_i t old hpc
    obtain ⟨hfresh, hf⟩ := h.place hpc
    split_ifs
    · exact h.within hpc hc ⟨fun _ => by cases t <;> exact hfresh rfl, by cases old <;> exact hf⟩
    · exact h.within hpc hc ⟨fun _ => by cases t <;> exact hfresh rfl, by cases old <;> exact hf⟩
  · -- the second
    rename_i t old hpc
    obtain ⟨hfresh, hf⟩ := h.place hpc
    exact h.within hpc hc ⟨fun _ => by cases t <;> exact hfresh rfl, by cases old <;> exact hf⟩
  · rename_i t old hpc
    split_ifs
    · exact h.goto hpc rfl hc (h.place hpc).2
    · exact h.leave x .close
  · rename_i t hpc
    split_ifs
    · exact h.goto hpc rfl hc (h.place hpc).2
    · exact h.leave x .close
  · exact h

theorem project_inv (h : Inv s) (x : Uuid) (p : Projection) : Inv (project s x p) := by
  have hc := h.control
  unfold project
  split
  · exact h.leave x .close
  · rename_i hpc
    exact h.goto hpc rfl hc ⟨rfl, by simp [Task.claims]⟩
  · rename_i hpc
    exact h.exitWithin hpc .chooser hc.clearIfCurrent
  · exact h.leave x .chooser
  · rename_i hpc
    exact h.goto hpc rfl hc (h.place hpc).2
  · exact h.leave x .close
  · exact h.leave x .chooser
  · split_ifs
    · exact h.leave x .close
    · exact h.settle rfl (Or.inl ⟨rfl, rfl⟩) hc
  · exact h

/-- `try_dispatch`, with the facts at the place behind it -/
theorem tryDispatch_inv (h : Inv s) {pc : Pc} (hp : pc.holdsState = false)
    (hf : ∀ c k, Fact s.connectionEpoch x c k { s.att x with pc := pc }) : Inv (tryDispatch s x pc) := by
  unfold tryDispatch
  split_ifs with hd
  · exact h
  · have hn : s.dispatch = none := by simpa using hd
    exact h.put (fun _ => Or.inr hn) (fun hl => by simp [hp] at hl) (Or.inr (Or.inr hn)) h.control (hf _ _)

theorem receiveChooser_inv (h : Inv s) (x : Uuid) (f : Frame) : Inv (receiveChooser s x f) := by
  have hw : ∀ t : Task, t.Fresh s.connectionEpoch (s.att x) → Inv (s.goto x (.waiting t)) := by
    intro t ht
    refine h.put (by simp [Pc.holdsDispatch]) (by simp [Pc.holdsState]) (Or.inl ⟨rfl, rfl⟩) h.control ?_
    show t.Fresh s.connectionEpoch _
    cases t <;> exact ht
  cases f with
  | sessionSelect stamp session created =>
    simp only [receiveChooser]
    split_ifs
    · exact h
    · exact h.settle rfl (Or.inl ⟨rfl, rfl⟩) h.control
  | writer takeover stamp size =>
    simp only [receiveChooser]
    split_ifs with h1
    · exact h
    · exact hw _ (by simp at h1; exact h1.1)
  | sessionRefresh stamp =>
    simp only [receiveChooser]
    split_ifs
    · exact h
    · exact h.leave x .chooser
  | sessionCreate stamp name =>
    simp only [receiveChooser]
    split_ifs with h1
    · exact h
    · have hst : (s.att x).stale s.connectionEpoch stamp = false := by simpa using h1
      exact hw _ hst
  | _ => exact h.leave x .close

theorem receiveWorkspace_inv (h : Inv s) (x : Uuid) (f : Frame) : Inv (receiveWorkspace s x f) := by
  cases f with
  | workspaceReturnToChooser stamp =>
    simp only [receiveWorkspace]
    split_ifs
    · exact h.leave x .chooser
    · exact h
  | writer takeover stamp size =>
    simp only [receiveWorkspace]
    split_ifs with h1
    · exact h
    · refine tryDispatch_inv h rfl fun _ _ => ?_
      simp only [Bool.or_eq_true, decide_eq_true_eq, Bool.not_eq_true', not_or, not_not, Bool.not_eq_false] at h1
      exact h1.1
  | operation stamp op =>
    simp only [receiveWorkspace]
    split
    · exact h
    · exact h
    · exact h.leave x .close
    · rename_i hv
      exact tryDispatch_inv h rfl fun _ _ => verdict_dispatch_matches hv
  | _ => exact h.leave x .close

theorem lock_inv (h : Inv s) (x : Uuid) : Inv (step s (.lock x)) := by
  simp only [step]
  split
  · rename_i t hpc
    have hd : (s.att x).pc.holdsDispatch = true := by rw [hpc]; rfl
    have hf : t.Fresh s.connectionEpoch (s.att x) := by
      have := h.fact x
      simpa only [Fact, hpc] using this
    by_cases hst : s.state.isSome = true
    · rw [if_pos hst]; exact h
    · have hn : s.state = none := by simpa using hst
      rw [if_neg hst]
      cases t with
      | enter =>
        simp only
        split_ifs
        · exact h.leave x .close
        · exact h.put (fun _ => Or.inl hd) (fun _ => Or.inr hn) (Or.inr (Or.inl hd)) h.control ⟨fun _ => trivial, fun _ => rfl⟩
      | _ => exact h.put (fun _ => Or.inl hd) (fun _ => Or.inr hn) (Or.inr (Or.inl hd)) h.control ⟨fun _ => hf, by simp [At.Fact]⟩
  · exact h

theorem step_inv (h : Inv s) (o : Op) : Inv (step s o) := by
  have hc := h.control
  cases o with
  | route b => exact ⟨h.dispatch, h.state, h.control, h.fact⟩
  | probed x epoch sessions =>
    simp only [step]
    split_ifs
    · exact h.settle rfl (Or.inl ⟨rfl, rfl⟩) hc
    · exact h
  | receive x f =>
    simp only [step]
    split
    · exact receiveChooser_inv h x f
    · exact receiveWorkspace_inv h x f
    · exact h
  | started x =>
    simp only [step]
    split_ifs
    · exact h.settle rfl (Or.inl ⟨rfl, rfl⟩) hc
    · exact h
  | directive x =>
    simp only [step]
    split
    · exact h.settle rfl (Or.inl ⟨rfl, rfl⟩) hc
    · exact h.leave x .chooser
    · exact h
  | hangUp x close =>
    simp only [step]
    split
    · exact h.leave x .close
    · exact h.leave x .close
    · exact h.settle rfl (Or.inl ⟨rfl, rfl⟩) hc
    · exact h.leave x _
    · exact h
  | refresh x =>
    simp only [step]
    split_ifs
    · exact tryDispatch_inv h rfl fun _ _ => trivial
    · exact h
  | acquire x =>
    simp only [step]
    split
    · rename_i t hpc
      refine tryDispatch_inv h rfl fun _ _ => ?_
      have hf := h.fact x
      simp only [Fact, hpc] at hf
      show t.Fresh s.connectionEpoch _
      cases t <;> exact hf
    · exact h
  | lock x => exact lock_inv h x
  | proceed x =>
    simp only [step]
    split
    · rename_i hpc
      exact proceed_inv h hpc
    · exact h
  | command x answer => exact command_inv h x answer
  | project x p => exact project_inv h x p
  | reply x sent =>
    simp only [step]
    split
    · exact h.leave x _
    · rename_i hpc
      split_ifs
      · obtain ⟨ht, hin⟩ := (h.place hpc).2
        refine h.goto hpc rfl hc ⟨hin, fun hcl => ?_⟩
        rename_i t _ _
        cases t <;> simp_all [Task.mutates, Task.claims]
      · exact h.leave x .close
    · exact h
  | unavailable x ssh =>
    simp only [step]
    split
    · rename_i hpc
      split_ifs
      · exact h.leave x .close
      · exact h.goto hpc rfl hc (reply_fact (Or.inl rfl))
    · exact h

theorem run_inv (epoch : ℤ) (ops : List Op) : Inv (run (init epoch) ops) :=
  Machine.run_inv (I := Inv) (fun _ o h => step_inv h o) _ ops (inv_init epoch)

end OwlMux.Writer
