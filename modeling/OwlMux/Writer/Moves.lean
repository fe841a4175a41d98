/-
What one step of an attachment can do in a `WriterScope`, said once: it moves the attachment, changes the pointer only
under the state mutex and never in favour of another attachment, and reaches another attachment only through the
directive channel of the writer it is replacing.

Results:
- `step_moves`: every step of an attachment is such a move;
- `Moves.pc`, `Moves.current`: what a move leaves alone;
- `step_frame`: while an attachment is inside a block, no other attachment moves it or changes the pointer.
-/
import Mathlib.Tactic
import OwlMux.Writer.Mutex

namespace OwlMux.Writer

open OwlMux.Relay (Uuid Text)

/-- the attachment whose code a step runs -/
def Op.actor : Op → Option Uuid
  | .route _ => none
  | .probed x .. | .receive x _ | .started x | .directive x | .hangUp x _ | .refresh x | .acquire x | .lock x | .proceed x
  | .command x _ | .project x _ | .reply x _ | .unavailable x _ => some x

/-- the channel a place sends to -/
def At.target : At → Option Sender
  | .demoteSend old | .closeOld old _ => some old
  | _ => none

/-- the pointer after a step: untouched outside a block; inside one it is kept, cleared, or set by a claim -/
def Pointer (s : St) (x : Uuid) (c : Option Handle) : Prop :=
  c = s.current ∨ ∃ t p, (s.att x).pc = .critical t p ∧
    ∀ z, isCurrent z c = true → isCurrent z s.current = true ∨ z = x ∧ t.claims = true

/-- the states a step of `x` leads to -/
inductive Moves (s : St) (x : Uuid) : St → Prop
  | stay : Moves s x s
  | put {s' : St} (a : Attachment) (hs : Same s s') (hc : Pointer s x s'.current) : Moves s x (s'.put x a)
  | send {s' : St} {t : Task} {p : At} {k : Sender} (a : Attachment) (d : Directive) (hs : Same s s')
    (hc : Pointer s x s'.current) (hpc : (s.att x).pc = .critical t p) (hk : p.target = some k) :
    Moves s x ((s'.put x a).deliver k d)

variable {s s' : St} {x y : Uuid}

/-! ## Every step is a move -/

theorem Pointer.keep (s : St) (x : Uuid) : Pointer s x s.current := Or.inl rfl

theorem Pointer.shrink {t : Task} {p : At} (hpc : (s.att x).pc = .critical t p) {c : Option Handle}
    (hc : ∀ z, isCurrent z c = true → isCurrent z s.current = true) : Pointer s x c :=
  Or.inr ⟨t, p, hpc, fun z hz => Or.inl (hc z hz)⟩

theorem Pointer.none {t : Task} {p : At} (hpc : (s.att x).pc = .critical t p) : Pointer s x none :=
  Pointer.shrink hpc (by simp [isCurrent])

theorem isCurrent_clearIfCurrent {z : Uuid} {c : Option Handle} (h : isCurrent z (clearIfCurrent x c) = true) :
    isCurrent z c = true := by
  unfold clearIfCurrent at h
  split_ifs at h
  · simp [isCurrent] at h
  · exact h

theorem Pointer.clearIfCurrent {t : Task} {p : At} (hpc : (s.att x).pc = .critical t p) (y : Uuid) :
    Pointer s x (clearIfCurrent y s.current) :=
  Pointer.shrink hpc fun _ => isCurrent_clearIfCurrent

theorem Pointer.set {t : Task} {p : At} (hpc : (s.att x).pc = .critical t p) (ht : t.claims = true) (size : ClientSize)
    (k : Option Sender) : Pointer s x (some ⟨x, size, k⟩) :=
  Or.inr ⟨t, p, hpc, fun _ hz => Or.inr ⟨(beq_iff_eq.1 hz).symm, ht⟩⟩

theorem Moves.goto {k : Bool} {c : Option Handle} (hc : Pointer s x c) (pc : Pc) :
    Moves s x ({ s with checked := k, current := c }.goto x pc) := .put _ ⟨rfl, rfl, rfl, rfl⟩ hc

theorem Moves.exit {c : Option Handle} (hc : Pointer s x c) (e : Exit) : Moves s x ({ s with current := c }.exit x e) :=
  .put _ ⟨rfl, rfl, rfl, rfl⟩ hc

/-- a move that leaves the pointer alone -/
theorem Moves.keep {k : Bool} {n : ℕ} {f : Uuid → ℕ → Option Outcome} (a : Attachment) :
    Moves s x ({ s with checked := k, next := n, answered := f }.put x a) := .put a ⟨rfl, rfl, rfl, rfl⟩ (Or.inl rfl)

theorem start_moves {t : Task} (hpc : (s.att x).pc = .critical t .start) : Moves s x (start s x t) := by
  cases t with
  | create stamp name =>
    simp only [start]
    split_ifs <;> exact .keep _
  | claim takeover stamp size =>
    simp only [start]
    split_ifs
    · exact .keep _
    · exact .goto (.shrink hpc fun z hz => by simpa using hz) _
    · exact .keep _
    · split
      · exact .keep _
      · exact .goto (.set hpc rfl size none) _
  | enter =>
    simp only [start]
    split_ifs <;> exact .keep _
  | operate stamp op =>
    simp only [start]
    split_ifs
    · exact .keep _
    · exact .keep _
    · split <;> exact .keep _
  | claimControl takeover stamp size =>
    simp only [start]
    split_ifs
    · exact .keep _
    · exact .keep _
    · exact .goto (.shrink hpc fun z hz => by simpa using hz) _
    · split <;> exact .keep _
  | leave close =>
    refine .goto (.shrink hpc fun z hz => ?_) _
    rwa [show isCurrent z (clearControl x s.current) = isCurrent z s.current from
      isCurrent_modifyCurrent (fun g => { g with control := none }) (fun _ => rfl) x s.current] at hz
  | release => exact .goto (.clearIfCurrent hpc x) _

theorem giveUp_moves {c : Option Handle} (hc : Pointer s x c) (t : Task) (old : Option Sender) (r : Option Reply) :
    Moves s x (giveUp { s with current := c } x t old r) := by
  unfold giveUp
  split
  · exact .goto hc _
  · exact .goto hc _
  · exact .exit hc _

theorem afterClose_put (s : St) (x : Uuid) (t : Task) (r : Option Reply) : ∃ a, afterClose s x t r = s.put x a := by
  unfold afterClose
  split <;> exact ⟨_, rfl⟩

theorem proceed_moves (h : Inv s) {t : Task} {p : At} (hpc : (s.att x).pc = .critical t p) :
    Moves s x (proceed s x t p) := by
  have hclear := Pointer.clearIfCurrent hpc x
  have hf := (h.place hpc).2
  cases p with
  | start => exact start_moves hpc
  | demoteSend old =>
    simp only [proceed]
    split_ifs
    · exact .keep _
    · exact .send _ _ ⟨rfl, rfl, rfl, rfl⟩ (Or.inl rfl) hpc rfl
  | demoteWait => exact .keep _
  | demoted old outcome =>
    simp only [proceed]
    split_ifs
    · exact .goto (.none hpc) _
    · exact .goto (.none hpc) _
    · split
      · exact .goto (.set hpc rfl _ none) _
      · exact .keep _
  | closeOld old r =>
    obtain ⟨a, ha⟩ := afterClose_put s x t r
    simp only [proceed, ha]
    split_ifs
    · exact .keep a
    · exact .stay
    · exact .send a _ ⟨rfl, rfl, rfl, rfl⟩ (Or.inl rfl) hpc rfl
  | wrote old outcome =>
    cases t with
    | enter =>
      simp only [proceed]
      split_ifs
      · exact .exit hclear _
      · exact .goto (.shrink hpc fun z hz => by simpa using hz) _
      · exact .goto (.shrink hpc fun z hz => by simpa using hz) _
    | claimControl takeover stamp size =>
      simp only [proceed]
      split_ifs
      · exact giveUp_moves (.none hpc) _ _ _
      · exact giveUp_moves (.none hpc) _ _ _
      · exact .goto (.set hpc rfl size _) _
    | _ => exact .stay
  | resized old outcome =>
    cases t with
    | enter =>
      simp only [proceed]
      split_ifs
      · exact .exit hclear _
      · exact .keep _
    | claimControl =>
      simp only [proceed]
      split_ifs
      · exact giveUp_moves hclear _ _ _
      · exact giveUp_moves hclear _ _ _
      · exact .keep _
    | _ => exact .stay
  | mutated outcome =>
    simp only [proceed]
    split_ifs
    · exact .exit hclear _
    · split
      · exact .keep _
      · exact .keep _
      · exact .goto (.none hpc) _
      · exact .keep _
      · exact .goto hclear _
      · exact .goto (.shrink hpc fun z hz => by simpa using hz) _
      · exact .keep _
      · exact .keep _
      · exact .keep _
  | projected w =>
    simp only [proceed]
    split
    · split_ifs
      · exact .exit hclear _
      · split
        · exact .keep _
        · exact .keep _
    · split_ifs
      · exact .exit hclear _
      · exact .keep _
    · split_ifs
      · exact .keep _
      · split <;> exact .keep _
    · exact .stay
  | _ => exact .stay

theorem command_moves (s : St) (x : Uuid) (answer : Answer) : Moves s x (command s x answer) := by
  unfold command
  split
  · split_ifs <;> exact .keep _
  · split_ifs <;> exact .keep _
  · split_ifs <;> exact .keep _
  · exact .keep _
  · split_ifs <;> exact .keep _
  · split_ifs <;> exact .keep _
  · exact .stay

theorem project_moves (s : St) (x : Uuid) (p : Projection) : Moves s x (project s x p) := by
  unfold project
  split
  · exact .keep _
  · exact .keep _
  · rename_i hpc
    exact .exit (.clearIfCurrent hpc x) _
  · exact .keep _
  · exact .keep _
  · exact .keep _
  · exact .keep _
  · split_ifs <;> exact .keep _
  · exact .stay

theorem tryDispatch_moves (s : St) (x : Uuid) (pc : Pc) : Moves s x (tryDispatch s x pc) := by
  unfold tryDispatch
  split_ifs
  · exact .stay
  · exact .keep _

theorem receive_moves (s : St) (x : Uuid) (f : Frame) : Moves s x (step s (.receive x f)) := by
  simp only [step]
  split
  · cases f <;> simp only [receiveChooser] <;> (try split_ifs) <;> first | exact .stay | exact .keep _
  · cases f with
    | writer takeover stamp size =>
      simp only [receiveWorkspace]
      split_ifs
      · exact .stay
      · exact tryDispatch_moves s x _
    | operation stamp op =>
      simp only [receiveWorkspace]
      split
      · exact .stay
      · exact .stay
      · exact .keep _
      · exact tryDispatch_moves s x _
    | workspaceReturnToChooser stamp =>
      simp only [receiveWorkspace]
      split_ifs
      · exact .keep _
      · exact .stay
    | _ => exact .keep _
  · exact .stay

/-- **Every step of an attachment is a move.** -/
theorem step_moves (h : Inv s) {o : Op} (ho : o.actor = some x) : Moves s x (step s o) := by
  cases o with
  | route b => simp [Op.actor] at ho
  | receive z f => obtain rfl : z = x := by simpa [Op.actor] using ho
                   exact receive_moves s z f
  | command z answer => obtain rfl : z = x := by simpa [Op.actor] using ho
                        exact command_moves s z answer
  | project z p => obtain rfl : z = x := by simpa [Op.actor] using ho
                   exact project_moves s z p
  | proceed z =>
    obtain rfl : z = x := by simpa [Op.actor] using ho
    simp only [step]
    split
    · rename_i hpc
      exact proceed_moves h hpc
    · exact .stay
  | refresh z | acquire z =>
    obtain rfl : z = x := by simpa [Op.actor] using ho
    simp only [step]
    split <;> first | exact tryDispatch_moves s z _ | exact .stay
  | probed z | started z =>
    obtain rfl : z = x := by simpa [Op.actor] using ho
    simp only [step]
    split_ifs
    · exact .keep _
    · exact .stay
  | directive z | hangUp z =>
    obtain rfl : z = x := by simpa [Op.actor] using ho
    simp only [step]
    split <;> first | exact .stay | exact .keep _
  | lock z =>
    obtain rfl : z = x := by simpa [Op.actor] using ho
    simp only [step]
    split
    · by_cases hst : s.state.isSome = true
      · rw [if_pos hst]; exact .stay
      · rw [if_neg hst]
        split
        · split_ifs
          · exact .keep _
          · exact .keep _
        · exact .keep _
    · exact .stay
  | reply z | unavailable z =>
    obtain rfl : z = x := by simpa [Op.actor] using ho
    simp only [step]
    split
    · first | exact .keep _ | (split_ifs <;> exact .keep _)
    · first | exact .stay | (split_ifs <;> exact .keep _)
    all_goals exact .stay

/-! ## What a move leaves alone -/

theorem deliver_pc (s : St) (k : Sender) (d : Directive) (y : Uuid) : ((s.deliver k d).att y).pc = (s.att y).pc := by
  by_cases hy : y = k.attachment
  · subst hy; simp [St.deliver, Attachment.push]
  · simp [St.deliver, Function.update_of_ne hy]

theorem Moves.pc {s₁ : St} (h : Moves s x s₁) (hy : y ≠ x) : (s₁.att y).pc = (s.att y).pc := by
  cases h with
  | stay => rfl
  | put a hs => rw [put_att_of_ne hy, hs.att]
  | send a d hs => rw [deliver_pc, put_att_of_ne hy, hs.att]

theorem Moves.pointer {s₁ : St} (h : Moves s x s₁) : Pointer s x s₁.current := by
  cases h with
  | stay => exact .keep s x
  | put a hs hc => exact hc
  | send a d hs hc => exact hc

theorem Moves.epoch {s₁ : St} (h : Moves s x s₁) : s₁.connectionEpoch = s.connectionEpoch := by
  cases h with
  | stay => rfl
  | put a hs => exact hs.epoch
  | send a d hs => exact hs.epoch

theorem run_epoch (epoch : ℤ) (ops : List Op) : (run (init epoch) ops).connectionEpoch = epoch := by
  induction ops using List.reverseRecOn with
  | nil => rfl
  | append_singleton ops o ih =>
    rw [run, Machine.run_snoc]
    cases ha : o.actor with
    | none =>
      cases o with
      | route b => exact ih
      | _ => simp [Op.actor] at ha
    | some x => exact (step_moves (run_inv epoch ops) ha).epoch.trans ih

/-- **Frame.** While `x` is inside a block, a step of another attachment neither moves `x` nor changes the pointer. -/
theorem step_frame (h : Inv s) (hx : (s.att x).pc.holdsState = true) {o : Op} (ho : o.actor ≠ some x) :
    ((step s o).att x).pc = (s.att x).pc ∧ (step s o).current = s.current := by
  cases ha : o.actor with
  | none =>
    cases o with
    | route b => exact ⟨rfl, rfl⟩
    | _ => simp [Op.actor] at ha
  | some y =>
    have hne : x ≠ y := fun e => ho (by rw [ha, e])
    have hm := step_moves h ha
    refine ⟨hm.pc hne, ?_⟩
    rcases hm.pointer with hc | ⟨t, p, hpc, -⟩
    · exact hc
    · have hy : (s.att y).pc.holdsDispatch = true := by rw [hpc]; rfl
      exact (hne (h.holder (Pc.holdsDispatch_of_holdsState hx) hy)).elim

end OwlMux.Writer
