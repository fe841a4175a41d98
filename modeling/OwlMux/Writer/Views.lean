/-
Who waits for whom in a takeover (`send_writer_state`, `demote_writer` in `owlmux-server/src/attachment.rs`, `WriterScope::view` in
`writer.rs`).

The loops of chooser and workspace send the writer state first, and again after every change of the pointer that the watch
channel reports. For that they take the state mutex alone, outside the select, so a loop that waits for it serves no directive.
A takeover holds the state mutex while it waits for the answer to its `Demote`.

- `St`: a `WriterScope` with the revision of its watch channel, what each loop has seen of it, the loops that are about to call
  `view` and the tasks that wait for the state mutex, in order (the mutex is fair);
- `CircularWait`: a takeover waits for the answer of a workspace that waits for the mutex of the takeover.

Results:
- `no_circular_wait`: in every run in which no workspace calls `view` behind a takeover;
- `view_behind_takeover`: a run that ends in a circular wait.
-/
import Mathlib.Tactic
import OwlMux.Writer.Mode

namespace OwlMux.Writer

open OwlMux.Relay (Uuid Text)

/-- the selects that send the writer state -/
def Pc.loops : Pc → Bool
  | .chooser | .workspace => true
  | _ => false

/-- a takeover, in a chooser or a workspace -/
def Task.takesOver : Task → Bool
  | .claim takeover .. | .claimControl takeover .. => takeover
  | _ => false

/-- a `Demote` is about to be sent, or has been -/
def At.demotes : At → Bool
  | .demoteSend _ | .demoteWait .. => true
  | _ => false

namespace Views

/-! ## Model -/

structure St where
  scope : Writer.St
  revision : ℕ
  seen : Uuid → ℕ
  /-- `send_writer_state` has been called, `view` has not -/
  sending : Uuid → Bool
  /-- the tasks that have called `lock` or `view` and wait for the state mutex -/
  queue : List Uuid

inductive VOp where
  | scope (o : Op)
  /-- `writer_changed.changed()` in the select of a loop -/
  | changed (x : Uuid)
  /-- the call of `view` -/
  | view (x : Uuid)
  /-- the state mutex goes to the first in its queue -/
  | grant
deriving DecidableEq, Repr

def init (connectionEpoch : ℤ) : St := ⟨Writer.init connectionEpoch, 0, fun _ => 0, fun _ => false, []⟩

/-- the loop that a step begins; it subscribes and sends the writer state -/
def begins (s : Writer.St) : Op → Option Uuid
  | .probed x .. => if (s.att x).pc = .connecting then some x else none
  | .proceed x =>
    match (s.att x).pc with
    | .critical .enter (.projected (some _)) => if s.route then some x else none
    | _ => none
  | _ => none

/-- a step of the scope; a change of the pointer notifies -/
def St.advance (v : St) (o : Op) : St :=
  let s := step v.scope o
  let revision := if s.current.map Handle.attachment = v.scope.current.map Handle.attachment then v.revision else v.revision + 1
  match begins v.scope o with
  | some x =>
    { v with scope := s, revision := revision, seen := Function.update v.seen x revision,
             sending := Function.update v.sending x true }
  | none => { v with scope := s, revision := revision }

/-- the attachment's task is inside `send_writer_state` or waits for the state mutex -/
def St.busy (v : St) (x : Uuid) : Bool := v.sending x || v.queue.contains x

def St.free (v : St) : Bool := v.scope.state.isNone && v.queue.isEmpty

def vstep (v : St) : VOp → St
  | .scope (.lock x) =>
    match (v.scope.att x).pc with
    | .locking _ =>
      if v.busy x then v
      else if v.free then v.advance (.lock x)
      else { v with queue := v.queue ++ [x] }
    | _ => v
  | .scope o => if o.actor.any v.busy then v else v.advance o
  | .changed x =>
    if (v.scope.att x).pc.loops && !v.busy x && decide (v.seen x ≠ v.revision) then
      { v with seen := Function.update v.seen x v.revision, sending := Function.update v.sending x true }
    else v
  | .view x =>
    if v.sending x then
      { v with sending := Function.update v.sending x false, queue := if v.free then v.queue else v.queue ++ [x] }
    else v
  | .grant =>
    match v.queue with
    | [] => v
    | z :: rest =>
      if v.scope.state.isSome then v
      else match (v.scope.att z).pc with
        | .locking _ => { v.advance (.lock z) with queue := rest }
        | _ => { v with queue := rest }

/-- the attachment takes over: it holds the state mutex or asks for it -/
def takes (s : Writer.St) (z : Uuid) : Bool :=
  match (s.att z).pc with
  | .locking t | .critical t _ => t.takesOver
  | _ => false

/-- a task holds the state mutex and waits for the answer of a workspace, and this workspace waits for the state mutex -/
def CircularWait (v : St) : Prop :=
  ∃ x y t k n, v.scope.state = some y ∧ (v.scope.att y).pc = .critical t (.demoteWait k n) ∧ k.attachment = x ∧
    v.scope.answered x n = none ∧ (v.scope.att x).pc.live = true ∧ x ∈ v.queue

/-- a workspace calls `view` while a takeover holds the state mutex or waits for it -/
def viewsBehindTakeover (v : St) : VOp → Bool
  | .view x =>
    v.sending x && decide ((v.scope.att x).pc = .workspace) &&
      (v.scope.state.any (takes v.scope) || v.queue.any (takes v.scope))
  | _ => false

def Unhindered (v : St) (o : VOp) : Prop := viewsBehindTakeover v o = false

instance (v : St) (o : VOp) : Decidable (Unhindered v o) := inferInstanceAs (Decidable (viewsBehindTakeover v o = false))

/-! ## Blocks keep their task -/

/-- where a place inside a block comes from: the same block; a demotion begins in a takeover only -/
def From (pc pc' : Pc) : Prop :=
  ∀ t p', pc' = .critical t p' → ∃ p, pc = .critical t p ∧ (p'.demotes = true → t.takesOver = true ∨ p.demotes = true)

variable {s s' : Writer.St} {x y : Uuid} {pc : Pc}

theorem from_outside {pc' : Pc} (h : pc'.holdsState = false) : From pc pc' := by
  rintro t p' rfl
  simp [Pc.holdsState] at h

theorem from_refl (pc : Pc) : From pc pc := fun _ p h => ⟨p, h, .inr⟩

theorem from_within {t : Task} {p p' : At} (h : p'.demotes = true → t.takesOver = true ∨ p.demotes = true) :
    From (.critical t p) (.critical t p') := by
  rintro t' q ⟨⟩
  exact ⟨p, rfl, h⟩

theorem from_goto {pc' : Pc} (h : From pc pc') : From pc ((s.goto x pc').att x).pc := by
  simpa only [Writer.St.goto, put_att_self] using h

theorem from_put {a : Attachment} (h : From pc a.pc) : From pc ((s.put x a).att x).pc := by
  rwa [put_att_self]

theorem from_exit (a : Attachment) (e : Exit) : From pc (a.exit e).pc := from_outside (exit_holdsState a e)

theorem from_exitSt (e : Exit) : From pc ((s.exit x e).att x).pc := from_put (from_exit _ e)

theorem from_deliver {k : Sender} {d : Directive} (h : From pc (s.att x).pc) : From pc ((s.deliver k d).att x).pc := by
  rwa [deliver_pc]

/-- a place from which no demotion begins is reached inside the same block -/
theorem from_step {t : Task} {p p' : At} (h : p'.demotes = false) (hpc : pc = .critical t p) : From pc (.critical t p') := by
  subst hpc
  exact from_within (by simp [h])

theorem from_start {t : Task} (hpc : (s.att x).pc = .critical t .start) : From (s.att x).pc ((start s x t).att x).pc := by
  cases t with
  | leave close =>
    simp only [start]
    split_ifs <;> exact from_goto (from_outside rfl)
  | release => exact from_goto (from_outside rfl)
  | operate stamp op =>
    simp only [start]
    split_ifs
    · exact from_goto (from_step rfl hpc)
    · exact from_exitSt _
    · split <;> exact from_goto (from_step rfl hpc)
  | claim takeover stamp size | claimControl takeover stamp size =>
    simp only [start]
    split_ifs with h1 h2 h3
    · exact from_exitSt _
    · exact from_goto (from_step rfl hpc)
    · exact from_goto (from_step rfl hpc)
    · split
      · rename_i old hold
        -- somebody else is the writer, so only a takeover comes here
        have htake : takeover = true := by
          obtain ⟨g, hg, -⟩ := Option.bind_eq_some_iff.1 hold
          simp_all
        rw [hpc]
        exact from_goto (from_within fun _ => .inl htake)
      · exact from_goto (from_step rfl hpc)
  | create stamp name | enter =>
    simp only [start]
    split_ifs <;> exact from_goto (from_step rfl hpc)

theorem from_giveUp {t : Task} {p : At} (hpc : pc = .critical t p) (old : Option Sender) (r : Option Reply) :
    From pc ((giveUp s x t old r).att x).pc := by
  cases old with
  | some k => exact from_goto (from_step rfl hpc)
  | none =>
    cases r with
    | some r => exact from_goto (from_step rfl hpc)
    | none => exact from_exitSt _

theorem from_afterClose {t : Task} {p : At} (hpc : pc = .critical t p) (r : Option Reply) :
    From pc ((afterClose s x t r).att x).pc := by
  cases r with
  | none => exact from_exitSt _
  | some r => cases t <;> exact from_goto (from_step rfl hpc)

theorem from_proceed {t : Task} {p : At} (hpc : (s.att x).pc = .critical t p) :
    From (s.att x).pc ((proceed s x t p).att x).pc := by
  cases p with
  | start => exact from_start hpc
  | demoteSend old =>
    simp only [proceed]
    split_ifs
    · exact from_goto (from_step rfl hpc)
    · rw [hpc]
      exact from_deliver (from_goto (from_within fun _ => .inr rfl))
  | demoteWait old response => exact from_goto (from_step rfl hpc)
  | demoted old outcome =>
    simp only [proceed]
    split_ifs
    · exact from_goto (from_step rfl hpc)
    · exact from_goto (from_step rfl hpc)
    · split <;> exact from_goto (from_step rfl hpc)
  | closeOld old r =>
    simp only [proceed]
    split_ifs
    · exact from_afterClose hpc r
    · exact from_refl _
    · exact from_deliver (from_afterClose hpc r)
  | wrote old outcome =>
    cases t with
    | enter =>
      simp only [proceed]
      split_ifs
      · exact from_exitSt _
      all_goals exact from_goto (from_step rfl hpc)
    | claimControl takeover stamp size =>
      simp only [proceed]
      split_ifs
      · exact from_giveUp hpc _ _
      · exact from_giveUp hpc _ _
      · exact from_goto (from_step rfl hpc)
    | _ => exact from_refl _
  | resized old outcome =>
    cases t with
    | enter =>
      simp only [proceed]
      split_ifs
      · exact from_exitSt _
      · exact from_goto (from_step rfl hpc)
    | claimControl takeover stamp size =>
      simp only [proceed]
      split_ifs
      · exact from_giveUp hpc _ _
      · exact from_giveUp hpc _ _
      · exact from_goto (from_step rfl hpc)
    | _ => exact from_refl _
  | mutated outcome =>
    simp only [proceed]
    split_ifs
    · exact from_exitSt _
    · split <;> exact from_goto (from_step rfl hpc)
  | projected w =>
    simp only [proceed]
    split
    · split_ifs
      · exact from_exitSt _
      · split
        · exact from_exitSt _
        · exact from_put (from_outside rfl)
    · split_ifs
      · exact from_exitSt _
      · exact from_put (from_step rfl hpc)
    · split_ifs
      · exact from_exitSt _
      · split
        · exact from_put (from_step rfl hpc)
        · exact from_put (from_outside rfl)
    · exact from_refl _
  | _ => exact from_refl _

theorem from_command (s : Writer.St) (x : Uuid) (answer : Answer) : From (s.att x).pc ((command s x answer).att x).pc := by
  unfold command
  split
  · split_ifs
    · exact from_put (from_outside rfl)
    · exact from_put (from_exit _ _)
  · split_ifs <;> exact from_put (from_exit _ _)
  · rename_i hpc
    split_ifs <;> exact from_put (from_step rfl hpc)
  · rename_i hpc
    exact from_put (from_step rfl hpc)
  · rename_i hpc
    split_ifs
    · exact from_goto (from_step rfl hpc)
    · exact from_exitSt _
  · rename_i hpc
    split_ifs
    · exact from_goto (from_step rfl hpc)
    · exact from_exitSt _
  · exact from_refl _

theorem from_project (s : Writer.St) (x : Uuid) (p : Projection) : From (s.att x).pc ((project s x p).att x).pc := by
  unfold project
  split
  · exact from_exitSt _
  · rename_i hpc
    exact from_goto (from_step rfl hpc)
  · exact from_exitSt _
  · exact from_exitSt _
  · rename_i hpc
    exact from_goto (from_step rfl hpc)
  · exact from_exitSt _
  · exact from_exitSt _
  · split_ifs
    · exact from_exitSt _
    · exact from_put (from_outside rfl)
  · exact from_refl _

theorem from_tryDispatch (s : Writer.St) (x : Uuid) {pc' : Pc} (h : pc'.holdsState = false) :
    From (s.att x).pc ((tryDispatch s x pc').att x).pc := by
  unfold tryDispatch
  split_ifs
  · exact from_refl _
  · exact from_goto (from_outside h)

theorem from_receive (s : Writer.St) (x : Uuid) (f : Frame) : From (s.att x).pc ((step s (.receive x f)).att x).pc := by
  simp only [step]
  split
  · cases f <;> simp only [receiveChooser] <;>
      first
      | exact from_exitSt _
      | (split_ifs <;> first | exact from_refl _ | exact from_exitSt _ | exact from_goto (from_outside rfl))
  · cases f <;> simp only [receiveWorkspace] <;>
      first
      | exact from_exitSt _
      | (split_ifs <;> first | exact from_refl _ | exact from_exitSt _ | exact from_tryDispatch s x rfl)
      | (split <;> first | exact from_refl _ | exact from_exitSt _ | exact from_tryDispatch s x rfl)
  · exact from_refl _

/-- every step but `lock` -/
theorem from_op {o : Op} (ho : o.actor = some x) (hl : o ≠ .lock x) : From (s.att x).pc ((step s o).att x).pc := by
  cases o with
  | route b => simp [Op.actor] at ho
  | receive z f =>
    obtain rfl : z = x := by simpa [Op.actor] using ho
    exact from_receive s z f
  | command z answer =>
    obtain rfl : z = x := by simpa [Op.actor] using ho
    exact from_command s z answer
  | project z p =>
    obtain rfl : z = x := by simpa [Op.actor] using ho
    exact from_project s z p
  | proceed z =>
    obtain rfl : z = x := by simpa [Op.actor] using ho
    simp only [step]
    split
    · rename_i hpc
      exact from_proceed hpc
    · exact from_refl _
  | probed z | started z =>
    obtain rfl : z = x := by simpa [Op.actor] using ho
    simp only [step]
    split_ifs
    · exact from_put (from_outside rfl)
    · exact from_refl _
  | directive z =>
    obtain rfl : z = x := by simpa [Op.actor] using ho
    simp only [step]
    split
    · exact from_put (from_outside rfl)
    · exact from_exitSt _
    · exact from_refl _
  | hangUp z close =>
    obtain rfl : z = x := by simpa [Op.actor] using ho
    simp only [step]
    split
    · exact from_exitSt _
    · exact from_exitSt _
    · exact from_goto (from_outside rfl)
    · exact from_exitSt _
    · exact from_refl _
  | refresh z =>
    obtain rfl : z = x := by simpa [Op.actor] using ho
    simp only [step]
    split_ifs
    · exact from_tryDispatch s z rfl
    · exact from_refl _
  | acquire z =>
    obtain rfl : z = x := by simpa [Op.actor] using ho
    simp only [step]
    split
    · exact from_tryDispatch s z rfl
    · exact from_refl _
  | lock z =>
    obtain rfl : z = x := by simpa [Op.actor] using ho
    exact (hl rfl).elim
  | reply z sent =>
    obtain rfl : z = x := by simpa [Op.actor] using ho
    simp only [step]
    split
    · exact from_exitSt _
    · rename_i hpc
      split_ifs
      · exact from_goto (from_step rfl hpc)
      · exact from_exitSt _
    · exact from_refl _
  | unavailable z ssh =>
    obtain rfl : z = x := by simpa [Op.actor] using ho
    simp only [step]
    split
    · rename_i hpc
      split_ifs
      · exact from_exitSt _
      · exact from_goto (from_step rfl hpc)
    · exact from_refl _

/-- `lock` begins the block of its task -/
theorem lock_pc {t : Task} (hpc : (s.att x).pc = .locking t) (hfree : s.state = none) :
    ((step s (.lock x)).att x).pc = .critical t .start ∨ ((step s (.lock x)).att x).pc.holdsState = false := by
  simp only [step, hpc, hfree]
  cases t with
  | enter =>
    simp only [Option.isSome_none, Bool.false_eq_true, if_false]
    split_ifs
    · exact .inr (by simpa only [Writer.St.exit, put_att_self] using exit_holdsState _ _)
    · exact .inl (by simp [Writer.St.goto, put_att_self])
  | _ => exact .inl (by simp [Writer.St.goto, put_att_self])

/-! ## Invariant -/

/-- the workspaces that wait for the state mutex wait behind no takeover -/
structure Clear (v : St) : Prop where
  inv : Inv v.scope
  demotes : ∀ y t p, (v.scope.att y).pc = .critical t p → p.demotes = true → t.takesOver = true
  sending : ∀ x, v.sending x = true → (v.scope.att x).pc.loops = true ∧ x ∉ v.queue
  place : ∀ x ∈ v.queue, (v.scope.att x).pc.loops = true ∨ ∃ t, (v.scope.att x).pc = .locking t
  nodup : v.queue.Nodup
  holder : ∀ x ∈ v.queue, (v.scope.att x).pc = .workspace → ∀ z, v.scope.state = some z → takes v.scope z = false
  order : v.queue.Pairwise fun z x => (v.scope.att x).pc = .workspace → takes v.scope z = false

variable {v : St}

theorem clear_init (epoch : ℤ) : Clear (init epoch) where
  inv := inv_init epoch
  demotes := by simp [init, Writer.init, Attachment.init]
  sending := by simp [init]
  place := by simp [init]
  nodup := List.nodup_nil
  holder := by simp [init]
  order := List.Pairwise.nil

theorem holds_of_state (h : Inv s) {z : Uuid} (hz : s.state = some z) : (s.att z).pc.holdsState = true := (h.state z).1 hz

theorem state_of_holds (h : Inv s) {z : Uuid} (hz : (s.att z).pc.holdsState = true) : s.state = some z := (h.state z).2 hz

theorem takes_congr (h : (s'.att y).pc = (s.att y).pc) : takes s' y = takes s y := by simp only [takes, h]

theorem Clear.notCircular (h : Clear v) : ¬ CircularWait v := by
  rintro ⟨x, y, t, k, n, hst, hpc, hk, -, hlive, hx⟩
  have htake : takes v.scope y = true := by simpa only [takes, hpc] using h.demotes y t _ hpc rfl
  rcases h.place x hx with hloop | ⟨t', hlock⟩
  · cases hp : (v.scope.att x).pc with
    | workspace => simp [h.holder x hx hp y hst] at htake
    | chooser => simp [hp, Pc.live] at hlive
    | _ => simp [hp, Pc.loops] at hloop
  · -- both would hold the dispatch mutex
    have hxy := h.inv.holder (x := x) (y := y) (by simp [hlock, Pc.holdsDispatch]) (by simp [hpc, Pc.holdsDispatch])
    rw [hxy, hpc] at hlock
    cases hlock

/-! ## Steps -/

theorem begins_actor {o : Op} (h : begins s o = some x) : o.actor = some x := by
  cases o with
  | probed z | proceed z =>
    simp only [begins] at h
    simp only [Op.actor]
    split_ifs at h <;> first | exact h | (split at h <;> first | exact h | simp at h)
  | _ => simp [begins] at h

theorem begins_loops {o : Op} (h : begins s o = some x) : ((step s o).att x).pc.loops = true := by
  cases o with
  | probed z epoch sessions =>
    simp only [begins] at h
    split_ifs at h with hpc
    obtain rfl : z = x := by simpa using h
    simp only [step, if_pos hpc, put_att_self]
    rfl
  | proceed z =>
    simp only [begins] at h
    split at h
    · rename_i w hpc
      split_ifs at h with hr
      obtain rfl : z = x := by simpa using h
      simp only [step, hpc, proceed, hr, Bool.not_true, Bool.false_eq_true, if_false, put_att_self]
      rfl
    · simp at h
  | _ => simp [begins] at h

theorem advance_scope (v : St) (o : Op) : (v.advance o).scope = step v.scope o := by
  simp only [St.advance]
  split <;> rfl

theorem advance_queue (v : St) (o : Op) : (v.advance o).queue = v.queue := by
  simp only [St.advance]
  split <;> rfl

/-- only the loop that begins sends its state in addition -/
theorem advance_sending {o : Op} (hx : (v.advance o).sending x = true) : v.sending x = true ∨ begins v.scope o = some x := by
  simp only [St.advance] at hx
  split at hx
  · rename_i z hz
    by_cases hzx : x = z
    · subst hzx
      exact .inr hz
    · have hx' : Function.update v.sending z true x = true := hx
      rw [Function.update_of_ne hzx] at hx'
      exact .inl hx'
  · exact .inl hx

/-- while the attachment of a step is not in the queue, those that are stay where they are -/
theorem Clear.frame (h : Clear v) {o : Op} {a : Uuid} (ho : o.actor = some a) {y : Uuid} (hy : y ≠ a) :
    ((step v.scope o).att y).pc = (v.scope.att y).pc :=
  (step_moves h.inv ho).pc hy

theorem Clear.demotesAfter (h : Clear v) {o : Op} {a : Uuid} (ho : o.actor = some a)
    (hown : ∀ t p, ((step v.scope o).att a).pc = .critical t p → p.demotes = true → t.takesOver = true) :
    ∀ y t p, ((step v.scope o).att y).pc = .critical t p → p.demotes = true → t.takesOver = true := by
  intro y t p hpc hp
  by_cases hy : y = a
  · subst hy
    exact hown t p hpc hp
  · exact h.demotes y t p (h.frame ho hy ▸ hpc) hp

theorem Clear.demotesOwn (h : Clear v) {o : Op} {a : Uuid} (ho : o.actor = some a) (hl : o ≠ .lock a) (t : Task) (p : At)
    (hpc : ((step v.scope o).att a).pc = .critical t p) (hp : p.demotes = true) : t.takesOver = true := by
  obtain ⟨q, hq, hd⟩ := from_op ho hl t p hpc
  rcases hd hp with h1 | h1
  · exact h1
  · exact h.demotes a t q hq h1

/-- a step of an attachment that neither waits nor takes the mutex -/
theorem Clear.advance (h : Clear v) {o : Op} {a : Uuid} (ho : o.actor = some a) (hl : o ≠ .lock a) (hb : v.busy a = false) :
    Clear (v.advance o) := by
  obtain ⟨hs, hq⟩ : v.sending a = false ∧ a ∉ v.queue := by simpa [St.busy] using hb
  have hne : ∀ x ∈ v.queue, x ≠ a := fun x hx he => hq (he ▸ hx)
  have hinv := step_inv h.inv o
  refine ⟨?_, ?_, ?_, ?_, ?_, ?_, ?_⟩
  · rw [advance_scope]
    exact hinv
  · rw [advance_scope]
    exact h.demotesAfter ho (h.demotesOwn ho hl)
  · intro x hx
    rw [advance_scope, advance_queue]
    rcases advance_sending hx with hold | hbeg
    · have hxa : x ≠ a := by
        rintro rfl
        simp [hs] at hold
      rw [h.frame ho hxa]
      exact h.sending x hold
    · obtain rfl : a = x := Option.some.inj (ho.symm.trans (begins_actor hbeg))
      exact ⟨begins_loops hbeg, hq⟩
  · intro x hx
    rw [advance_queue] at hx
    rw [advance_scope, h.frame ho (hne x hx)]
    exact h.place x hx
  · rw [advance_queue]
    exact h.nodup
  · intro x hx hpc z hz
    rw [advance_queue] at hx
    rw [advance_scope] at hpc hz ⊢
    rw [h.frame ho (hne x hx)] at hpc
    have hholds := holds_of_state hinv hz
    by_cases hza : z = a
    · subst hza
      -- it has held the mutex before, for the same task
      cases hp' : ((step v.scope o).att z).pc with
      | critical t p' =>
        obtain ⟨p, hp, -⟩ := from_op ho hl t p' hp'
        have := h.holder x hx hpc z (state_of_holds h.inv (by rw [hp]; rfl))
        simpa only [takes, hp, hp'] using this
      | _ => simp [hp', Pc.holdsState] at hholds
    · rw [h.frame ho hza] at hholds
      rw [takes_congr (h.frame ho hza)]
      exact h.holder x hx hpc z (state_of_holds h.inv hholds)
  · rw [advance_queue]
    refine h.order.imp_of_mem fun {z x} hz hx hzx hpc => ?_
    rw [advance_scope] at hpc ⊢
    rw [h.frame ho (hne x hx)] at hpc
    rw [takes_congr (h.frame ho (hne z hz))]
    exact hzx hpc

theorem lock_demotes {t : Task} (hpc : (s.att x).pc = .locking t) (hfree : s.state = none) (t' : Task) (p : At)
    (h : ((step s (.lock x)).att x).pc = .critical t' p) (hp : p.demotes = true) : t'.takesOver = true := by
  rcases lock_pc hpc hfree with h1 | h1
  · rw [h] at h1
    cases h1
    simp [At.demotes] at hp
  · rw [h] at h1
    simp [Pc.holdsState] at h1

theorem begins_lock (s : Writer.St) (x y : Uuid) : begins s (.lock x) ≠ some y := by simp [begins]

/-- the mutex is free and goes to the first that waits for it, or to a task at once (`rest` is the whole queue then) -/
theorem Clear.lock (h : Clear v) {z : Uuid} {t : Task} (hpc : (v.scope.att z).pc = .locking t) (hfree : v.scope.state = none)
    {rest : List Uuid} (hq : v.queue = z :: rest ∨ v.queue = [] ∧ rest = []) :
    Clear { v.advance (.lock z) with queue := rest } := by
  have hsub : rest.Sublist v.queue := by
    rcases hq with hq | ⟨hq, rfl⟩
    · rw [hq]
      exact List.sublist_cons_self z rest
    · exact List.nil_sublist _
  have hnz : ∀ x ∈ rest, x ≠ z := by
    rintro x hx rfl
    rcases hq with hq | ⟨-, rfl⟩
    · have := h.nodup
      rw [hq] at this
      exact (List.nodup_cons.1 this).1 hx
    · simp at hx
  have hinv := step_inv h.inv (.lock z)
  have hframe : ∀ y, y ≠ z → ((step v.scope (.lock z)).att y).pc = (v.scope.att y).pc := fun y hy => h.frame rfl hy
  refine ⟨?_, ?_, ?_, ?_, ?_, ?_, ?_⟩
  · rw [advance_scope]
    exact hinv
  · rw [advance_scope]
    exact h.demotesAfter rfl (lock_demotes hpc hfree)
  · intro x hx
    rw [advance_scope]
    have hx' : (v.advance (.lock z)).sending x = true := hx
    rcases advance_sending hx' with hold | hbeg
    · obtain ⟨hloop, hnq⟩ := h.sending x hold
      have hxz : x ≠ z := by
        rintro rfl
        simp [hpc, Pc.loops] at hloop
      rw [hframe x hxz]
      exact ⟨hloop, fun hx' => hnq (hsub.subset hx')⟩
    · exact (begins_lock _ _ _ hbeg).elim
  · intro x hx
    rw [advance_scope, hframe x (hnz x hx)]
    exact h.place x (hsub.subset hx)
  · exact h.nodup.sublist hsub
  · intro x hx hx' w hw
    rw [advance_scope] at hx' hw ⊢
    rw [hframe x (hnz x hx)] at hx'
    have hholds := holds_of_state hinv hw
    by_cases hwz : w = z
    · subst hwz
      rcases lock_pc hpc hfree with h1 | h1
      · rcases hq with hq | ⟨-, rfl⟩
        · have ho := h.order
          rw [hq] at ho
          have := (List.pairwise_cons.1 ho).1 x hx hx'
          simpa only [takes, hpc, h1] using this
        · simp at hx
      · simp [hholds] at h1
    · rw [hframe w hwz] at hholds
      have := state_of_holds h.inv hholds
      simp [hfree] at this
  · refine (h.order.sublist hsub).imp_of_mem fun {w x} hw hx hwx hx' => ?_
    rw [advance_scope] at hx' ⊢
    rw [hframe x (hnz x hx)] at hx'
    rw [takes_congr (hframe w (hnz w hw))]
    exact hwx hx'

/-- a task joins the queue; a workspace does so only when no takeover is before it -/
theorem Clear.enqueue (h : Clear v) {sending : Uuid → Bool} (hsend : ∀ y, sending y = true → y ≠ x ∧ v.sending y = true)
    (hx : x ∉ v.queue) (hplace : (v.scope.att x).pc.loops = true ∨ ∃ t, (v.scope.att x).pc = .locking t)
    (hclear : (v.scope.att x).pc = .workspace →
      (∀ z, v.scope.state = some z → takes v.scope z = false) ∧ ∀ z ∈ v.queue, takes v.scope z = false) :
    Clear { v with sending := sending, queue := v.queue ++ [x] } := by
  refine ⟨h.inv, h.demotes, ?_, ?_, ?_, ?_, ?_⟩
  · intro y hy
    obtain ⟨hyx, hs⟩ := hsend y hy
    obtain ⟨hloop, hnq⟩ := h.sending y hs
    exact ⟨hloop, by simp [hnq, hyx]⟩
  · intro y hy
    rcases List.mem_append.1 hy with hy | hy
    · exact h.place y hy
    · obtain rfl := List.mem_singleton.1 hy
      exact hplace
  · have : ∀ a ∈ v.queue, a ≠ x := fun a ha he => hx (he ▸ ha)
    simpa [List.nodup_append] using ⟨h.nodup, this⟩
  · intro y hy hpc
    rcases List.mem_append.1 hy with hy | hy
    · exact h.holder y hy hpc
    · obtain rfl := List.mem_singleton.1 hy
      exact (hclear hpc).1
  · refine List.pairwise_append.2 ⟨h.order, List.pairwise_singleton _ _, fun z hz y hy hpc => ?_⟩
    obtain rfl := List.mem_singleton.1 hy
    exact (hclear hpc).2 z hz

theorem vstep_clear (h : Clear v) {o : VOp} (hok : Unhindered v o) : Clear (vstep v o) := by
  cases o with
  | scope o =>
    cases ho : o.actor with
    | none =>
      cases o with
      | route b =>
        have hinv := step_inv h.inv (.route b)
        exact ⟨hinv, h.demotes, h.sending, h.place, h.nodup, h.holder, h.order⟩
      | _ => simp [Op.actor] at ho
    | some a =>
      by_cases hl : o = .lock a
      · subst hl
        simp only [vstep]
        split
        · rename_i t hpc
          split_ifs with hb hf
          · exact h
          · obtain ⟨hst, hq⟩ : v.scope.state = none ∧ v.queue = [] := by simpa [St.free] using hf
            have : Clear { v.advance (.lock a) with queue := [] } := h.lock hpc hst (.inr ⟨hq, rfl⟩)
            rwa [← hq, ← advance_queue v (.lock a)] at this
          · obtain ⟨hs, hnq⟩ : v.sending a = false ∧ a ∉ v.queue := by simpa [St.busy] using hb
            refine h.enqueue (fun y hy => ⟨?_, hy⟩) hnq (.inr ⟨t, hpc⟩) (by simp [hpc])
            rintro rfl
            simp [hs] at hy
        · exact h
      · have hstep : vstep v (.scope o) = if v.busy a then v else v.advance o := by
          cases o <;> simp_all [vstep, Op.actor]
        rw [hstep]
        split_ifs with hb
        · exact h
        · exact h.advance ho hl (by simpa using hb)
  | changed x =>
    simp only [vstep]
    split_ifs with hc
    · simp only [Bool.and_eq_true, Bool.not_eq_true', decide_eq_true_eq] at hc
      obtain ⟨⟨hloop, hb⟩, -⟩ := hc
      obtain ⟨-, hnq⟩ : v.sending x = false ∧ x ∉ v.queue := by simpa [St.busy] using hb
      refine ⟨h.inv, h.demotes, fun y hy => ?_, h.place, h.nodup, h.holder, h.order⟩
      by_cases hyx : y = x
      · subst hyx
        exact ⟨hloop, hnq⟩
      · exact h.sending y (by simpa [Function.update_of_ne hyx] using hy)
    · exact h
  | view x =>
    simp only [vstep]
    split_ifs with hs hf
    · refine ⟨h.inv, h.demotes, fun y hy => ?_, h.place, h.nodup, h.holder, h.order⟩
      by_cases hyx : y = x
      · subst hyx
        simp at hy
      · exact h.sending y (by simpa [Function.update_of_ne hyx] using hy)
    · obtain ⟨hloop, hnq⟩ := h.sending x hs
      refine h.enqueue (fun y hy => ?_) hnq (.inl hloop) fun hpc => ?_
      · by_cases hyx : y = x
        · subst hyx
          simp at hy
        · exact ⟨hyx, by simpa [Function.update_of_ne hyx] using hy⟩
      · have hnone := hok
        simp only [Unhindered, viewsBehindTakeover, hs, hpc, decide_true, Bool.and_self, Bool.true_and, Bool.or_eq_false_iff] at hnone
        refine ⟨fun z hz => ?_, fun z hz => ?_⟩
        · simpa [hz] using hnone.1
        · simpa using List.any_eq_false.1 hnone.2 z hz
    · exact h
  | grant =>
    simp only [vstep]
    split
    · exact h
    · rename_i z rest hq
      split_ifs with hst
      · exact h
      · have hfree : v.scope.state = none := by simpa using hst
        split
        · rename_i t hpc
          exact h.lock hpc hfree (.inl hq)
        · have hsub : rest.Sublist v.queue := by
            rw [hq]
            exact List.sublist_cons_self z rest
          exact ⟨h.inv, h.demotes, fun x hx => ⟨(h.sending x hx).1, fun hx' => (h.sending x hx).2 (hsub.subset hx')⟩,
            fun x hx => h.place x (hsub.subset hx), h.nodup.sublist hsub, fun x hx => h.holder x (hsub.subset hx),
            h.order.sublist hsub⟩

/-- **No circular wait.** In every run in which no workspace calls `view` while a takeover holds the state mutex or waits for
it, no state has a takeover that waits for the answer of a workspace that waits for its mutex. -/
theorem no_circular_wait (epoch : ℤ) (ops : List VOp) (hok : Machine.Along vstep Unhindered (init epoch) ops) :
    ∀ pre post, ops = pre ++ post → ¬ CircularWait (Machine.run vstep (init epoch) pre) := by
  rintro pre post rfl
  have hpre := ((Machine.along_append (init epoch) pre post).1 hok).1
  exact (Machine.run_inv_along (fun _ _ ho hv => vstep_clear hv ho) _ pre hpre (clear_init epoch)).notCircular

/-! ## A takeover that waits for its own mutex -/

/-- attachment 1 claims in its chooser, opens a workspace and is about to send its writer state -/
def writerOpens : List VOp :=
  .scope (.probed 1 11 [(['$', '0'], 7)]) :: .view 1 :: (writerEnters.drop 1).map .scope

/-- attachment 2 takes over in its chooser, up to the block of its claim -/
def takeoverLocks : List VOp :=
  [.scope (.probed 2 22 []), .view 2, .scope (.receive 2 (.writer true ⟨['1'], 22⟩ ⟨80, 24⟩)), .scope (.acquire 2), .scope (.lock 2)]

/-- it sends `Demote` -/
def takeoverDemotes : List VOp := [.scope (.proceed 2), .scope (.proceed 2)]

/-- attachment 1 has sent its state before: it carries out the demotion, and no state on the way is a circular wait -/
theorem no_circular_wait_served :
    ((Machine.run vstep (init 1) (writerOpens ++ .view 1 :: takeoverLocks ++ takeoverDemotes ++ [.scope (.directive 1)])).scope.att 1).pc =
      .demoting 0 false ∧
    ¬ CircularWait (Machine.run vstep (init 1) (writerOpens ++ .view 1 :: takeoverLocks ++ takeoverDemotes)) := by
  have hok : Machine.Along vstep Unhindered (init 1) (writerOpens ++ .view 1 :: takeoverLocks ++ takeoverDemotes) := by decide +kernel
  exact ⟨by decide +kernel, no_circular_wait 1 _ hok _ [] (by simp)⟩

/-- **A circular wait.** The workspace of attachment 1 calls `view` when the takeover has the state mutex. -/
theorem view_behind_takeover :
    CircularWait (Machine.run vstep (init 1) (writerOpens ++ takeoverLocks ++ .view 1 :: takeoverDemotes)) := by
  refine ⟨1, 2, .claim true ⟨['1'], 22⟩ ⟨80, 24⟩, ⟨1, 1⟩, 0, ?_⟩
  decide +kernel

end Views

end OwlMux.Writer
