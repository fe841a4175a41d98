/-
Modes of the workspaces of a `WriterScope`: what the read-only flag of each tmux control client has to do with the writer
pointer, with the directives in the workspace's channel and with the place of the holder of the mutexes.

The flag is changed by `switch-client -r`, a toggle, so every claim and every demotion has to find the client in the mode
it expects. A workspace is in one of four modes: writable (`Writable`), observing (`Observing`), being demoted (`Pending`,
then `Demoted`), or abandoned by a claimant whose `Demote` was not answered in time (`Abandoned`): still writable, with
`Demote` and behind it `Close` waiting in its channel. `Ok` says which mode belongs to which place; `Mode` says it of every
workspace.

Results:
- `Mode.alone`: the rule for a step outside the blocks, which concerns one workspace;
- `Mode.acted`, `Mode.within`: the rules for a step inside a block, which concerns the attachment itself and the one it
  replaces.
-/
import Mathlib.Tactic
import OwlMux.Writer.Moves

namespace OwlMux.Writer

open OwlMux.Relay (Uuid Text)

/-! ## Modes of a workspace -/

def Pc.isDemoting : Pc → Bool
  | .demoting .. => true
  | _ => false

/-- no demotion is under way or waiting; a `Close` may be -/
def Attachment.Quiet (a : Attachment) : Prop :=
  a.pc.isDemoting = false ∧ (a.directives = [] ∨ a.directives = [.close])

def Attachment.Writable (a : Attachment) : Prop := a.Quiet ∧ a.readOnly = false

def Attachment.Observing (a : Attachment) : Prop := a.Quiet ∧ a.readOnly = true

/-- the demotion with this response waits, behind a `Close` perhaps, or is under way -/
def Attachment.Pending (a : Attachment) (response : ℕ) : Prop :=
  a.readOnly = false ∧
    ((a.pc.isDemoting = false ∧ (a.directives = [.demote response] ∨ a.directives = [.close, .demote response])) ∨
      (∃ second, a.pc = .demoting response second) ∧ a.directives = [])

/-- the demotion has succeeded -/
def Attachment.Demoted (a : Attachment) : Prop :=
  a.pc.isDemoting = false ∧ a.readOnly = true ∧ a.directives = []

/-- nobody waits for the demotion any more, and `Close` follows it -/
def Attachment.Abandoned (a : Attachment) : Prop :=
  a.readOnly = false ∧
    ((a.pc.isDemoting = false ∧ ∃ n, a.directives = [.demote n, .close] ∨ a.directives = [.close, .demote n, .close]) ∨
      a.pc.isDemoting = true ∧ a.directives = [.close])

/-! ## What the holder of the mutexes does to a workspace -/

/-- the channel of the writer that is replaced -/
def At.onto : At → Option Sender
  | .demoteSend old | .demoteWait old _ | .demoted old _ | .closeOld old _ => some old
  | .setWriter old _ | .wrote old _ | .resize old | .resized old _ => old
  | _ => none

/-- the place, if it concerns this channel -/
def Pc.at (pc : Pc) (k : Sender) : Option At :=
  match pc with
  | .critical _ p => if p.onto = some k then some p else none
  | _ => none

/-- the place of the holder of the state mutex, if it replaces this workspace -/
def St.handling (s : St) (k : Sender) : Option At :=
  s.state.bind fun y => if y = k.attachment then none else (s.att y).pc.at k

/-- the registered channel -/
def St.control (s : St) : Option Sender := s.current.bind Handle.control

/-- the workspace has passed its first block -/
def Pc.entered : Pc → Bool
  | .workspace | .demoting .. | .refreshing => true
  | .waiting t | .locking t => t.inWorkspace && decide (t ≠ .enter)
  | .critical .enter .start | .critical .enter (.setWriter ..) | .critical .enter (.wrote ..) => false
  | .critical t _ => t.inWorkspace
  | _ => false

/-- the workspace has returned and `clear_control` has not run yet -/
def Pc.leaving : Pc → Bool
  | .waiting (.leave _) | .locking (.leave _) | .critical (.leave _) _ => true
  | _ => false

/-- writable when registered, else observing or abandoned -/
def Settled (a : Attachment) (reg : Prop) : Prop := (reg → a.Writable) ∧ (¬ reg → a.Observing ∨ a.Abandoned)

/-- the flag at the workspace's own places -/
def OwnFlags (a : Attachment) (reg : Prop) : Prop :=
  match a.pc with
  | .critical _ (.setWriter _ true) | .critical _ (.wrote _ .succeeded) => a.Writable
  | .critical _ (.wrote ..) => True
  -- a claim that is given up leaves the workspace
  | .critical _ (.closeOld ..) | .critical _ (.reply _ .chooser) | .critical _ (.reply _ .close) => ¬ reg
  | _ => Settled a reg

/-- the flag of a live workspace -/
def Flags (a : Attachment) (reg : Prop) (answered : ℕ → Option Outcome) : Option At → Prop
  | some (.demoteSend _) => a.Writable
  | some (.demoteWait _ response) =>
    (a.Pending response ∨ a.Demoted) ∧ (answered response = some .succeeded → a.Demoted)
  | some (.demoted _ outcome) => ((∃ n, a.Pending n) ∨ a.Demoted) ∧ (outcome = .succeeded → a.Demoted)
  | some (.closeOld ..) => (∃ n, a.Pending n) ∨ a.Demoted
  | some _ => a.Demoted
  | none => OwnFlags a reg

structure Ok (a : Attachment) (reg cur : Prop) (h : Option At) (answered : ℕ → Option Outcome) : Prop where
  /-- only the channel of a workspace that has been entered, or has not yet been cleared, is registered -/
  client : reg → a.pc.entered = true ∨ a.pc.leaving = true
  known : a.pc.entered = true → cur → reg
  live : a.pc.live = true → Flags a reg answered h
  gone : a.pc.live = false → h = none → reg → a.readOnly = false

structure Mode (s : St) : Prop where
  generation : ∀ k, s.control = some k → k = s.sender k.attachment
  /-- no block replaces a workspace that does not exist yet -/
  bound : ∀ y k, (s.att y).pc.at k ≠ none → k.workspace ≤ (s.att k.attachment).generation
  ok : ∀ x, Ok (s.att x) (s.control = some (s.sender x)) (isCurrent x s.current = true) (s.handling (s.sender x)) (s.answered x)

theorem mode_init (epoch : ℤ) : Mode (init epoch) := by
  refine ⟨by simp [St.control, init], by simp [init, Attachment.init, Pc.at], fun x => ⟨?_, ?_, ?_, ?_⟩⟩
  · simp [St.control, init]
  · simp [init, Attachment.init, Pc.entered]
  · simp [init, Attachment.init, Pc.live]
  · simp [St.control, init]

variable {s s' : St} {x y : Uuid}

/-! ## Who handles a workspace -/

theorem handling_of_free (h : s.state = none) (k : Sender) : s.handling k = none := by simp [St.handling, h]

theorem handling_of_holder (h : Inv s) (hx : (s.att x).pc.holdsState = true) {k : Sender} (hk : k.attachment ≠ x) :
    s.handling k = (s.att x).pc.at k := by
  simp [St.handling, (h.state x).2 hx, Ne.symm hk]

theorem handling_self (h : Inv s) (hx : (s.att x).pc.holdsState = true) : s.handling (s.sender x) = none := by
  simp [St.handling, (h.state x).2 hx, St.sender]

theorem at_of_not_holdsState {pc : Pc} (h : pc.holdsState = false) (k : Sender) : pc.at k = none := by
  cases pc <;> first | rfl | simp [Pc.holdsState] at h

theorem onto_of_at {t : Task} {p : At} {k : Sender} (h : (Pc.critical t p).at k ≠ none) : p.onto = some k := by
  by_contra hne
  exact h (by simp [Pc.at, hne])

theorem at_of_onto {t : Task} {p : At} {k : Sender} (h : p.onto = some k) : (Pc.critical t p).at k = some p := by
  simp [Pc.at, h]

theorem at_of_not_onto {t : Task} {p : At} {k : Sender} (h : p.onto ≠ some k) : (Pc.critical t p).at k = none := by
  simp [Pc.at, h]

/-- a step of an attachment outside the blocks does not change who handles whom -/
theorem handling_put (h : Inv s) (hs : Same s s') {a : Attachment} (hx : (s.att x).pc.holdsState = false)
    (ha : ∀ k, a.pc.at k = none) (hst : a.pc.holdsState = true → s.state = none) (k : Sender) :
    (s'.put x a).handling k = s.handling k := by
  have hne : s.state ≠ some x := fun e => by simpa [hx] using (h.state x).1 e
  cases hp : a.pc.holdsState with
  | true =>
    have hstate : (s'.put x a).state = some x := by simp [St.put, Mutex.hand, hp]
    simp [St.handling, hstate, put_att_self, ha, hst hp]
  | false =>
    have hstate : (s'.put x a).state = s.state := by simp [St.put, Mutex.hand, hp, hs.state, hne]
    unfold St.handling
    rw [hstate]
    cases hs' : s.state with
    | none => rfl
    | some y =>
      have hyx : y ≠ x := fun e => hne (by rw [hs', e])
      simp only [Option.bind_some]
      rw [put_att_of_ne hyx, hs.att]

/-! ## Rules for one workspace -/

/-- places at which the flag is settled -/
def Pc.plain : Pc → Bool
  | .critical _ (.setWriter _ true) | .critical _ (.wrote ..) | .critical _ (.closeOld ..)
  | .critical _ (.reply _ .chooser) | .critical _ (.reply _ .close) => false
  | _ => true

variable {a b : Attachment} {reg reg' cur cur' : Prop} {h : Option At} {ans ans' : ℕ → Option Outcome}

theorem ownFlags_of_plain (hp : a.pc.plain = true) : OwnFlags a reg ↔ Settled a reg := by
  unfold OwnFlags
  split <;> first | exact Iff.rfl | simp [Pc.plain, *] at hp

theorem plain_of_not_holdsState (hp : a.pc.holdsState = false) : a.pc.plain = true := by
  cases hpc : a.pc <;> first | rfl | simp [hpc, Pc.holdsState] at hp

/-- `b` has the client and the channel of `a`, and neither is being demoted -/
structure Alike (a b : Attachment) : Prop where
  readOnly : b.readOnly = a.readOnly
  directives : b.directives = a.directives
  before : a.pc.isDemoting = false
  after : b.pc.isDemoting = false

theorem Alike.settled (hab : Alike a b) (hs : Settled a reg) : Settled b reg := by
  unfold Settled Attachment.Writable Attachment.Observing Attachment.Abandoned Attachment.Quiet at *
  rwa [hab.after.trans hab.before.symm, hab.directives, hab.readOnly]

theorem Alike.writable (hab : Alike a b) (hw : a.Writable) : b.Writable := by
  unfold Attachment.Writable Attachment.Quiet at *
  rwa [hab.after.trans hab.before.symm, hab.directives, hab.readOnly]

theorem Alike.demoted (hab : Alike a b) (hw : a.Demoted) : b.Demoted := by
  unfold Attachment.Demoted at *
  rwa [hab.after.trans hab.before.symm, hab.directives, hab.readOnly]

theorem Alike.pending (hab : Alike a b) {n : ℕ} (hw : a.Pending n) : b.Pending n := by
  obtain ⟨hro, ⟨-, hd⟩ | ⟨⟨second, hpc⟩, -⟩⟩ := hw
  · exact ⟨hab.readOnly.trans hro, Or.inl ⟨hab.after, by rwa [hab.directives]⟩⟩
  · simpa [hpc, Pc.isDemoting] using hab.before

theorem Alike.flags (hab : Alike a b) (hp : a.pc.plain = true) (hp' : b.pc.plain = true) (hf : Flags a reg ans h) :
    Flags b reg ans h := by
  cases h with
  | none => exact (ownFlags_of_plain hp').2 (hab.settled ((ownFlags_of_plain hp).1 hf))
  | some p =>
    cases p with
    | demoteSend => exact hab.writable hf
    | demoteWait old n => exact ⟨hf.1.imp hab.pending hab.demoted, fun he => hab.demoted (hf.2 he)⟩
    | demoted => exact ⟨hf.1.imp (fun ⟨n, hn⟩ => ⟨n, hab.pending hn⟩) hab.demoted, fun he => hab.demoted (hf.2 he)⟩
    | closeOld => exact hf.imp (fun ⟨n, hn⟩ => ⟨n, hab.pending hn⟩) hab.demoted
    | _ => exact hab.demoted hf

/-- nothing is asked of an attachment without a workspace whose channel is not registered -/
theorem Ok.idle (hreg : ¬ reg) (hent : a.pc.entered = false) (hlive : a.pc.live = false) : Ok a reg cur h ans :=
  ⟨fun hr => (hreg hr).elim, fun he => by simp [hent] at he, fun hl => by simp [hlive] at hl, fun _ _ hr => (hreg hr).elim⟩

/-- a move between settled places of the same kind -/
theorem Ok.alike (ho : Ok a reg cur h ans) (hab : Alike a b) (hp : a.pc.plain = true) (hp' : b.pc.plain = true)
    (hl : b.pc.live = a.pc.live) (he : b.pc.entered = a.pc.entered) (hlv : b.pc.leaving = a.pc.leaving) :
    Ok b reg cur h ans := by
  refine ⟨?_, ?_, ?_, ?_⟩
  · rw [he, hlv]; exact ho.client
  · rw [he]; exact ho.known
  · rw [hl]; exact fun h' => hab.flags hp hp' (ho.live h')
  · rw [hl, hab.readOnly]; exact ho.gone

/-- leaving the workspace -/
theorem Ok.leave (hreg : reg → h = none → a.readOnly = false) (hlv : b.pc.leaving = true) (hro : b.readOnly = a.readOnly) :
    Ok b reg cur h ans := by
  have hb : b.pc.entered = false ∧ b.pc.live = false := by
    cases hpc : b.pc with
    | waiting t | locking t => cases t <;> simp_all [Pc.leaving, Pc.entered, Pc.live, Task.inWorkspace]
    | critical t p => cases t <;> simp_all [Pc.leaving, Pc.entered, Pc.live, Task.inWorkspace]
    | _ => simp [hpc, Pc.leaving] at hlv
  exact ⟨fun _ => Or.inr hlv, fun he => by simp [hb.1] at he, fun hl => by simp [hb.2] at hl, fun _ hh hr => hro ▸ hreg hr hh⟩

/-- the pointer changes, but not this attachment's registration -/
theorem Ok.foreign (ho : Ok a reg cur none ans) (hr : reg' ↔ reg) (hc : cur' → cur) : Ok a reg' cur' none ans := by
  obtain rfl : reg' = reg := propext hr
  exact ⟨ho.client, fun he hcur => ho.known he (hc hcur), ho.live, ho.gone⟩

/-- the holder goes from place to place in replacing this workspace -/
theorem Ok.shift {t : Task} {p q : At} {k : Sender} (ho : Ok a reg cur ((Pc.critical t p).at k) ans)
    (hq : q.onto = p.onto) (hf : a.pc.live = true → Flags a reg ans (some p) → Flags a reg ans (some q)) :
    Ok a reg cur ((Pc.critical t q).at k) ans := by
  by_cases hk : p.onto = some k
  · have h1 : (Pc.critical t p).at k = some p := by simp [Pc.at, hk]
    have h2 : (Pc.critical t q).at k = some q := by simp [Pc.at, hq, hk]
    rw [h1] at ho
    rw [h2]
    exact ⟨ho.client, ho.known, fun hl => hf hl (ho.live hl), fun _ hn => by cases hn⟩
  · have h1 : (Pc.critical t p).at k = none := by simp [Pc.at, hk]
    have h2 : (Pc.critical t q).at k = none := by simp [Pc.at, hq, hk]
    rw [h1] at ho
    rwa [h2]

/-- the replaced workspace loses its registration -/
theorem Ok.unregister {p : At} (ho : Ok a reg cur (some p) ans) {q : Option At} (hr : ¬ reg') (hc : ¬ cur')
    (hf : a.pc.live = true → Flags a reg ans (some p) → Flags a reg' ans' q) : Ok a reg' cur' q ans' :=
  ⟨fun h => (hr h).elim, fun _ h => (hc h).elim, fun hl => hf hl (ho.live hl), fun _ _ h => (hr h).elim⟩

/-! ## Rules for a step -/

/-- **Outside the blocks** a step changes one workspace, and only its own rule is left to show. -/
theorem Mode.alone (hM : Mode s) (hI : Inv s) {a : Attachment} {c : Bool} {f : Uuid → ℕ → Option Outcome}
    (hf : ∀ y, y ≠ x → f y = s.answered y) (hx : (s.att x).pc.holdsState = false)
    (ha : ∀ k, a.pc.at k = none) (hst : a.pc.holdsState = true → s.state = none)
    (hg : a.generation = (s.att x).generation ∨ (s.att x).generation ≤ a.generation ∧ s.control ≠ some (s.sender x))
    (hok : Ok a (s.control = some ⟨x, a.generation⟩) (isCurrent x s.current = true) (s.handling ⟨x, a.generation⟩)
      (f x)) : Mode ({ s with checked := c, answered := f }.put x a) := by
  set s' : St := { s with checked := c, answered := f }
  have hs : Same s s' := ⟨rfl, rfl, rfl, rfl⟩
  have hctl : (s'.put x a).control = s.control := rfl
  have hsend : ∀ y, y ≠ x → (s'.put x a).sender y = s.sender y := by
    intro y hy
    simp [St.sender, put_att_of_ne hy, hs.att]
  have hself : (s'.put x a).sender x = ⟨x, a.generation⟩ := by simp [St.sender, put_att_self]
  have hhand := handling_put hI hs hx ha hst
  refine ⟨fun k hk => ?_, fun y k hk => ?_, fun y => ?_⟩
  · rw [hctl] at hk
    have hgen := hM.generation k hk
    by_cases hkx : k.attachment = x
    · rcases hg with hg | ⟨-, hg⟩
      · rw [hkx] at hgen ⊢
        rw [hself, hg]; exact hgen
      · exact (hg (by rw [hk, hgen, hkx])).elim
    · rw [hsend _ hkx]; exact hgen
  · have hle : (s.att k.attachment).generation ≤ ((s'.put x a).att k.attachment).generation := by
      by_cases hkx : k.attachment = x
      · rw [hkx, put_att_self]
        rcases hg with hg | ⟨hg, -⟩
        · exact hg.ge
        · exact hg
      · rw [put_att_of_ne hkx, hs.att]
    by_cases hy : y = x
    · subst hy; rw [put_att_self] at hk; exact (hk (ha k)).elim
    · rw [put_att_of_ne hy, hs.att] at hk
      exact (hM.bound y k hk).trans hle
  · show Ok _ _ (isCurrent y s.current = true) _ (f y)
    rw [hhand, hctl]
    by_cases hy : y = x
    · subst hy; rw [put_att_self, hself]; exact hok
    · rw [put_att_of_ne hy, hs.att, hsend y hy, hf y hy]
      exact hM.ok y

/-- a state in which attachment `x`, inside a block before, has moved to `a`, and others got at most a directive -/
structure Acted (s s₁ : St) (x : Uuid) (a : Attachment) : Prop where
  self : s₁.att x = a
  generation : a.generation = (s.att x).generation
  other : ∀ y, y ≠ x → (s₁.att y).pc = (s.att y).pc ∧ (s₁.att y).generation = (s.att y).generation
  state : s₁.state = if a.pc.holdsState then some x else none
  answered : s₁.answered x = s.answered x

/-- **Inside a block** a step is judged for the attachment itself and for every other one. -/
theorem Mode.acted {s₁ : St} (hM : Mode s) (hI : Inv s) {t : Task} {p : At} (hpc : (s.att x).pc = .critical t p)
    (hA : Acted s s₁ x a) (hgen : ∀ k, s₁.control = some k → s.control = some k ∨ k = s.sender x)
    (honto : ∀ k, a.pc.at k ≠ none → p.onto = some k ∨ s.control = some k)
    (hown : Ok a (s₁.control = some (s.sender x)) (isCurrent x s₁.current = true) none (s.answered x))
    (hother : ∀ y, y ≠ x → (s.att y).pc.holdsState = false →
      Ok (s.att y) (s.control = some (s.sender y)) (isCurrent y s.current = true) ((Pc.critical t p).at (s.sender y))
        (s.answered y) →
      Ok (s₁.att y) (s₁.control = some (s.sender y)) (isCurrent y s₁.current = true) (a.pc.at (s.sender y))
        (s₁.answered y)) : Mode s₁ := by
  have hgeneration : ∀ y, (s₁.att y).generation = (s.att y).generation := by
    intro y
    by_cases hy : y = x
    · subst hy; rw [hA.self]; exact hA.generation
    · exact (hA.other y hy).2
  have hsend : ∀ y, s₁.sender y = s.sender y := fun y => by simp [St.sender, hgeneration]
  have hhold : (s.att x).pc.holdsState = true := by rw [hpc]; rfl
  have hhand : ∀ y, s₁.handling (s.sender y) = if y = x then none else a.pc.at (s.sender y) := by
    intro y
    unfold St.handling
    rw [hA.state]
    by_cases hy : y = x
    · subst hy; cases a.pc.holdsState <;> simp [St.sender]
    · cases hah : a.pc.holdsState with
      | true => simp [hA.self, St.sender, hy, Ne.symm hy]
      | false => simp [hy, at_of_not_holdsState hah]
  refine ⟨fun k hk => ?_, fun y k hk => ?_, fun y => ?_⟩
  · rw [hsend]
    rcases hgen k hk with hk | rfl
    · exact hM.generation k hk
    · rfl
  · rw [hgeneration]
    by_cases hy : y = x
    · subst hy
      rw [hA.self] at hk
      rcases honto k hk with ho | hc
      · exact hM.bound y k (by rw [hpc]; simp [Pc.at, ho])
      · have := hM.generation k hc
        rw [this]; exact le_refl _
    · refine hM.bound y k ?_
      have hfree : (s.att y).pc.holdsState = false := Bool.eq_false_iff.2 fun hyd =>
        hy (hI.holder (Pc.holdsDispatch_of_holdsState hyd) (Pc.holdsDispatch_of_holdsState hhold))
      rw [(hA.other y hy).1, at_of_not_holdsState hfree] at hk
      exact (hk rfl).elim
  · rw [hsend, hhand]
    by_cases hy : y = x
    · subst hy
      rw [hA.self, if_pos rfl, hA.answered]
      exact hown
    · rw [if_neg hy]
      have hfree : (s.att y).pc.holdsState = false := Bool.eq_false_iff.2 fun hyd =>
        hy (hI.holder (Pc.holdsDispatch_of_holdsState hyd) (Pc.holdsDispatch_of_holdsState hhold))
      refine hother y hy hfree ?_
      have := hM.ok y
      rwa [handling_of_holder hI hhold (by exact hy), hpc] at this

/-- the pointer after a step inside a block of `x`, as the other attachments see it -/
structure Foreign (s : St) (x : Uuid) (c : Option Handle) : Prop where
  other : ∀ k, k.attachment ≠ x → (c.bind Handle.control = some k ↔ s.control = some k)
  current : ∀ y, y ≠ x → isCurrent y c = true → isCurrent y s.current = true
  own : ∀ k, c.bind Handle.control = some k → k.attachment = x → s.control = some k ∨ k = s.sender x

theorem foreign_keep (s : St) (x : Uuid) : Foreign s x s.current := ⟨fun _ _ => Iff.rfl, fun _ _ h => h, fun _ h _ => Or.inl h⟩

/-- the holder of the pointer is `x`, or nobody's channel is registered -/
theorem foreign_of_unregistered (hI : Inv s) (hx : isCurrent x s.current = true ∨ s.control = none) {c : Option Handle}
    (hc : ∀ y, y ≠ x → isCurrent y c = false) (ho : Owned c)
    (hown : ∀ k, c.bind Handle.control = some k → s.control = some k ∨ k = s.sender x) : Foreign s x c := by
  refine ⟨fun k hk => iff_of_false (fun e => ?_) fun e => ?_, fun y hy h => by simp [hc y hy] at h, fun k hk _ => hown k hk⟩
  · obtain ⟨g, rfl, hg⟩ := Option.bind_eq_some_iff.1 e
    have := hc k.attachment hk
    simp [isCurrent, ho g rfl k hg] at this
  · rcases hx with hx | hx
    · obtain ⟨g, hg, hgk⟩ := Option.bind_eq_some_iff.1 e
      rw [hg] at hx
      exact hk ((hI.control g hg k hgk).trans (beq_iff_eq.1 hx))
    · rw [hx] at e; cases e

theorem foreign_none (hI : Inv s) (hx : isCurrent x s.current = true ∨ s.control = none) : Foreign s x none :=
  foreign_of_unregistered hI hx (by simp [isCurrent]) owned_none (by simp)

theorem foreign_clearIfCurrent (hI : Inv s) (x : Uuid) : Foreign s x (clearIfCurrent x s.current) := by
  cases hx : isCurrent x s.current with
  | true => rw [clearIfCurrent_eq_none hx]; exact foreign_none hI (Or.inl hx)
  | false =>
    have : clearIfCurrent x s.current = s.current := by simp [clearIfCurrent, hx]
    rw [this]; exact foreign_keep s x

theorem foreign_set (hI : Inv s) (hx : isCurrent x s.current = true ∨ s.control = none) (size : ClientSize)
    {k : Option Sender} (hk : k = none ∨ k = some (s.sender x)) : Foreign s x (some ⟨x, size, k⟩) := by
  refine foreign_of_unregistered hI hx (fun y hy => ?_) ?_ fun k' hk' => ?_
  · simpa [isCurrent] using Ne.symm hy
  · rcases hk with rfl | rfl
    · exact owned_some_none x size
    · exact owned_some_sender s x size
  · rcases hk with rfl | rfl
    · simp at hk'
    · exact Or.inr (by simpa using hk'.symm)

theorem foreign_modify (hI : Inv s) {f : Handle → Handle} (hf : ∀ g, (f g).attachment = g.attachment)
    (hk : ∀ g, (f g).control = g.control ∨ (f g).control = none ∨ (f g).control = some (s.sender x)) :
    Foreign s x (modifyCurrent x f s.current) := by
  cases hx : isCurrent x s.current with
  | false =>
    have : modifyCurrent x f s.current = s.current := by
      cases hc : s.current with
      | none => rfl
      | some g =>
        rw [hc] at hx
        have : g.attachment ≠ x := by simpa [isCurrent] using hx
        simp [modifyCurrent, this]
    rw [this]; exact foreign_keep s x
  | true =>
    cases hc : s.current with
    | none => rw [hc] at hx; simp [isCurrent] at hx
    | some g =>
      have hg : g.attachment = x := by rw [hc] at hx; simpa [isCurrent] using hx
      have hctl : s.control = g.control := by simp [St.control, hc]
      have hown := hI.control g hc
      have hm : modifyCurrent x f (some g) = some (f g) := by simp [modifyCurrent, hg]
      rw [hm]
      refine foreign_of_unregistered hI (Or.inl hx) (fun y hy => ?_) (fun g' hg' k hgk => ?_) fun k hgk => ?_
      · simpa [isCurrent, hf g, hg] using Ne.symm hy
      · obtain rfl : f g = g' := by simpa using hg'
        rw [hf g]
        rcases hk g with h | h | h
        · exact hown k (h ▸ hgk)
        · rw [h] at hgk; cases hgk
        · rw [h] at hgk; obtain rfl : s.sender x = k := by simpa using hgk
          exact hg.symm
      · have hgk' : (f g).control = some k := by simpa using hgk
        rcases hk g with h | h | h
        · exact Or.inl (by rw [hctl, ← h]; exact hgk')
        · rw [h] at hgk'; cases hgk'
        · rw [h] at hgk'; exact Or.inr (by simpa using hgk'.symm)

/-- the state after a step inside a block that sends nothing -/
theorem acted_put (hI : Inv s) {t : Task} {p : At} (hpc : (s.att x).pc = .critical t p)
    (hg : a.generation = (s.att x).generation) (hans : s'.answered x = s.answered x) (hs : Same s s') :
    Acted s (s'.put x a) x a := by
  refine ⟨put_att_self _ _ _, hg, fun y hy => by rw [put_att_of_ne hy, hs.att]; exact ⟨rfl, rfl⟩, ?_, hans⟩
  have hst : s.state = some x := (hI.state x).2 (by simp only [hpc, Pc.holdsState])
  simp [St.put, Mutex.hand, hs.state, hst]

/-- **Inside a block that replaces nobody.** -/
theorem Mode.within {b : Bool} {c : Option Handle} (hM : Mode s) (hI : Inv s) {t : Task} {p : At}
    (hpc : (s.att x).pc = .critical t p) (hp : p.onto = none) (hg : a.generation = (s.att x).generation) (hq : ∀ k, a.pc.at k = none)
    (hf : Foreign s x c)
    (hown : Ok a (c.bind Handle.control = some (s.sender x)) (isCurrent x c = true) none (s.answered x)) :
    Mode ({ s with checked := b, current := c }.put x a) := by
  refine hM.acted hI hpc (acted_put hI hpc hg rfl ⟨rfl, rfl, rfl, rfl⟩) (fun k hk => ?_) (fun k hk => (hk (hq k)).elim)
    hown fun y hy hfree ho => ?_
  · by_cases hkx : k.attachment = x
    · exact hf.own k hk hkx
    · exact Or.inl ((hf.other k hkx).1 hk)
  · have h1 : (Pc.critical t p).at (s.sender y) = none := by simp [Pc.at, hp]
    rw [h1] at ho
    rw [hq, put_att_of_ne hy]
    exact ho.foreign (hf.other (s.sender y) hy) (hf.current y hy)

end OwlMux.Writer
