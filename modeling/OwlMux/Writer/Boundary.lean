/-
Writer authority across the workspaces of one attachment (`authenticated_session`, `workspace`, `WriterGuard::clear_control` in
`owlmux-server/src/attachment.rs` and `writer.rs`).

A workspace returns to the chooser at many places. Those that end a failed claim or an ambiguous mutation clear the pointer
first. The others (`returnsWriter`) leave it alone; afterwards `clear_control` takes the channel out of the pointer, not the
attachment, and the next workspace promotes its client because the attachment is still the writer.

Results:
- `authority_ends`: in every run in which no workspace of the current writer returns at one of those places, the attachment is
  not the writer after its exit until a claim of its own;
- `return_keeps_authority`: the writer returns to the chooser, selects a session and its new client is promoted.
-/
import Mathlib.Tactic
import OwlMux.Writer.Fence
import OwlMux.Writer.Mode

namespace OwlMux.Writer

open OwlMux.Relay (Uuid Text)

/-! ## Returns -/

/-- the attachment that a step returns from its workspace to the chooser without a look at the pointer: on request, after
`Close`, when the control client has ended, after a failed demotion, or because the target changed -/
def returnsUnasked (s : St) : Op → Option Uuid
  | .receive x (.workspaceReturnToChooser stamp) =>
    if (s.att x).pc = .workspace ∧ (s.att x).workspace.matches s.connectionEpoch stamp = true then some x else none
  | .directive x =>
    match (s.att x).pc, (s.att x).directives with
    | .workspace, .close :: _ => some x
    | _, _ => none
  | .hangUp x false => if (s.att x).pc = .workspace then some x else none
  | .command x answer =>
    match (s.att x).pc with
    | .demoting .. => if answer.outcome = .succeeded then none else some x
    | _ => none
  | .project x .changed =>
    match (s.att x).pc with
    | .refreshing | .critical (.operate ..) .project => some x
    | _ => none
  | .proceed x => if (s.att x).pc = .critical .enter (.projected none) ∧ s.route = true then some x else none
  | _ => none

/-- it is the current writer -/
def returnsWriter (s : St) (o : Op) : Bool := (returnsUnasked s o).any fun x => isCurrent x s.current

def NoWriterReturns (s : St) (o : Op) : Prop := returnsWriter s o = false

instance (s : St) (o : Op) : Decidable (NoWriterReturns s o) := inferInstanceAs (Decidable (returnsWriter s o = false))

/-- the attachment whose exit a step has processed: it is on its way to the chooser, or gone -/
def exitProcessed (s : St) : Op → Option Uuid
  | .proceed x =>
    match (s.att x).pc with
    | .critical (.leave false) .start | .critical .release .start => some x
    | _ => none
  | _ => none

/-- it has left its workspace for the chooser, or reports an outcome after which it does -/
def Pc.returning : Pc → Bool
  | .waiting (.leave false) | .locking (.leave false) | .critical (.leave false) _ => true
  | .critical t (.reply _ .chooser) => t.inWorkspace
  | _ => false

def LeftAt (s : St) (x : Uuid) : Prop := (s.att x).pc.returning = true → isCurrent x s.current = false

variable {s s' : St} {x y : Uuid}

/-! ## Steps -/

theorem NoWriterReturns.of_returns {o : Op} (hok : NoWriterReturns s o) (h : returnsUnasked s o = some x) :
    isCurrent x s.current = false := by
  simpa [NoWriterReturns, returnsWriter, h] using hok

theorem leftAt_goto {pc : Pc} (h : pc.returning = true → isCurrent x s.current = false) : LeftAt (s.goto x pc) x := by
  intro hr
  simp only [St.goto, put_att_self] at hr
  exact h hr

theorem leftAt_put {a : Attachment} (h : a.pc.returning = true → isCurrent x s.current = false) : LeftAt (s.put x a) x := by
  intro hr
  rw [put_att_self] at hr
  exact h hr

theorem exit_returning (a : Attachment) (e : Exit) : (a.exit e).pc.returning = true → a.pc.live = true ∧ e = .chooser := by
  cases e <;> simp only [Attachment.exit]
  · split_ifs <;> simp [Pc.returning]
  · split_ifs with h
    · exact fun _ => ⟨h, trivial⟩
    · simp [Pc.returning]
  · split_ifs <;> simp [Pc.returning]

theorem leftAt_exit {e : Exit} (h : e = .chooser → (s.att x).pc.live = true → isCurrent x s.current = false) :
    LeftAt (s.exit x e) x :=
  leftAt_put fun hr => h (exit_returning _ _ hr).2 (exit_returning _ _ hr).1

theorem leftAt_close : LeftAt (s.exit x .close) x := leftAt_exit (by simp)

theorem LeftAt.deliver (h : LeftAt s x) (k : Sender) (d : Directive) : LeftAt (s.deliver k d) x := by
  intro hr
  rw [deliver_pc] at hr
  exact h hr

/-- a block returns when it leaves the workspace, or reports that it will -/
theorem returning_critical {t : Task} {p : At} (hp : ∀ r, p ≠ .reply r .chooser) (hr : (Pc.critical t p).returning = true) :
    t = .leave false := by
  cases t with
  | leave c => cases c <;> first | rfl | (cases p <;> simp_all [Pc.returning])
  | _ =>
    cases p with
    | reply r e => cases e <;> first | exact (hp r rfl).elim | simp [Pc.returning] at hr
    | _ => simp [Pc.returning] at hr

theorem leftAt_within {t : Task} {p : At} (ht : ∀ c, t ≠ .leave c) (hp : ∀ r, p ≠ .reply r .chooser) :
    LeftAt (s.goto x (.critical t p)) x :=
  leftAt_goto fun hr => (ht _ (returning_critical hp hr)).elim

/-- from place to place inside a block -/
theorem LeftAt.shift (hl : LeftAt s x) {t : Task} {p q : At} (hpc : (s.att x).pc = .critical t p) (hq : ∀ r, q ≠ .reply r .chooser)
    (hr : (Pc.critical t q).returning = true) : isCurrent x s.current = false := by
  obtain rfl := returning_critical hq hr
  exact hl (by rw [hpc]; rfl)

theorem leftAt_reply {t : Task} {r : Reply} {e : Exit} (h : isCurrent x s.current = false) :
    LeftAt (s.goto x (.critical t (.reply r e))) x := leftAt_goto fun _ => h

theorem giveUp_left {t : Task} {old : Option Sender} {r : Option Reply} (ht : ∀ c, t ≠ .leave c)
    (h : isCurrent x s.current = false) : LeftAt (giveUp s x t old r) x := by
  cases old with
  | some k => exact leftAt_within ht (by simp)
  | none =>
    cases r with
    | some r => exact leftAt_reply h
    | none => exact leftAt_close

theorem afterClose_left {t : Task} {r : Option Reply} (h : isCurrent x s.current = false) : LeftAt (afterClose s x t r) x := by
  cases r with
  | none => exact leftAt_close
  | some r => cases t <;> exact leftAt_reply h

theorem start_left (t : Task) : LeftAt (start s x t) x := by
  cases t with
  | leave close =>
    simp only [start]
    split_ifs <;> exact leftAt_goto (by simp [Pc.returning])
  | release => exact leftAt_goto (by simp [Pc.returning])
  | operate stamp op =>
    simp only [start]
    split_ifs
    · exact leftAt_within (by simp) (by simp)
    · exact leftAt_close
    · split <;> exact leftAt_within (by simp) (by simp)
  | claim takeover stamp size | claimControl takeover stamp size =>
    simp only [start]
    split_ifs
    · exact leftAt_close
    · exact leftAt_within (by simp) (by simp)
    · exact leftAt_within (by simp) (by simp)
    · split <;> exact leftAt_within (by simp) (by simp)
  | create stamp name | enter =>
    simp only [start]
    split_ifs <;> exact leftAt_within (by simp) (by simp)

theorem isCurrent_none (x : Uuid) : isCurrent x none = false := rfl

theorem Task.not_leave_of_claims {t : Task} (h : t.claims = true) (c : Bool) : t ≠ .leave c := by
  rintro rfl
  simp [Task.claims] at h

theorem proceed_left (h : Inv s) {t : Task} {p : At} (hpc : (s.att x).pc = .critical t p) (hl : LeftAt s x)
    (hok : NoWriterReturns s (.proceed x)) : LeftAt (proceed s x t p) x := by
  have hfact := (h.place hpc).2
  cases p with
  | start => exact start_left t
  | demoteSend old =>
    have ht := Task.not_leave_of_claims hfact.1
    simp only [proceed]
    split_ifs
    · exact leftAt_within ht (by simp)
    · exact (leftAt_within ht (by simp)).deliver _ _
  | demoteWait old response => exact leftAt_within (Task.not_leave_of_claims hfact.1) (by simp)
  | demoted old outcome =>
    have ht := Task.not_leave_of_claims hfact.1
    simp only [proceed]
    split_ifs
    · exact leftAt_within ht (by simp)
    · exact leftAt_within ht (by simp)
    · split
      · exact leftAt_within (by simp) (by simp)
      · exact leftAt_within ht (by simp)
  | closeOld old r =>
    have hc : isCurrent x s.current = false := by rw [hfact.2.1, isCurrent_none]
    simp only [proceed]
    split_ifs
    · exact afterClose_left hc
    · exact hl
    · exact (afterClose_left hc).deliver _ _
  | wrote old outcome =>
    cases t with
    | enter =>
      simp only [proceed]
      split_ifs
      · exact leftAt_exit fun _ _ => isCurrent_clearIfCurrent_self _
      all_goals exact leftAt_within (by simp) (by simp)
    | claimControl takeover stamp size =>
      simp only [proceed]
      split_ifs
      · exact giveUp_left (by simp) (isCurrent_none x)
      · exact giveUp_left (by simp) (isCurrent_none x)
      · exact leftAt_within (by simp) (by simp)
    | _ => exact hl
  | resized old outcome =>
    cases t with
    | enter =>
      simp only [proceed]
      split_ifs
      · exact leftAt_exit fun _ _ => isCurrent_clearIfCurrent_self _
      · exact leftAt_within (by simp) (by simp)
    | claimControl takeover stamp size =>
      simp only [proceed]
      split_ifs
      · exact giveUp_left (by simp) (isCurrent_clearIfCurrent_self _)
      · exact giveUp_left (by simp) (isCurrent_clearIfCurrent_self _)
      · exact leftAt_within (by simp) (by simp)
    | _ => exact hl
  | mutated outcome =>
    have ht : ∀ c, t ≠ .leave c := by
      rintro c rfl
      simp [Task.mutates, At.Fact] at hfact
    simp only [proceed]
    split_ifs
    · exact leftAt_close
    · cases t with
      | create stamp name =>
        cases outcome <;> exact leftAt_goto (by simp [Pc.returning, Task.inWorkspace])
      | _ =>
        cases outcome with
        | ambiguous => exact leftAt_reply (isCurrent_clearIfCurrent_self _)
        | failed => exact leftAt_within ht (by simp)
        | succeeded =>
          first
          | exact leftAt_within ht (by simp)
          | (rename_i op; cases op <;> exact leftAt_within ht (by simp))
  | projected w =>
    cases t with
    | enter =>
      simp only [proceed]
      split_ifs with hr
      · exact leftAt_close
      · cases w with
        | some w => exact leftAt_put (by simp [Pc.returning])
        | none =>
          exact leftAt_exit fun _ _ => hok.of_returns (by simpa [returnsUnasked, hpc] using hr)
    | operate stamp op =>
      cases w with
      | none => exact hl
      | some w =>
        simp only [proceed]
        split_ifs
        · exact leftAt_close
        · split <;> exact leftAt_put (by simp [Pc.returning])
    | claimControl takeover stamp size =>
      cases w with
      | none => exact hl
      | some w =>
        simp only [proceed]
        split_ifs
        · exact leftAt_close
        · exact leftAt_put (by simp [Pc.returning])
    | _ => exact hl
  | _ => exact hl

theorem command_left (hl : LeftAt s x) {answer : Answer} (hok : NoWriterReturns s (.command x answer)) :
    LeftAt (command s x answer) x := by
  unfold command
  split
  · rename_i response hpc
    split_ifs with ho
    · exact leftAt_put (by simp [Pc.returning])
    · exact leftAt_put fun _ => hok.of_returns (by simp [returnsUnasked, hpc, ho])
  · rename_i response hpc
    split_ifs with ho
    · exact leftAt_put fun hr => by simpa using (exit_returning _ _ hr).2
    · exact leftAt_put fun _ => hok.of_returns (by simp [returnsUnasked, hpc, ho])
  · rename_i t old hpc
    split_ifs <;> exact leftAt_put (hl.shift hpc (by simp))
  · rename_i t old hpc
    exact leftAt_put (hl.shift hpc (by simp))
  · rename_i t old hpc
    split_ifs
    · exact leftAt_goto (hl.shift hpc (by simp))
    · exact leftAt_close
  · rename_i t hpc
    split_ifs
    · exact leftAt_goto (hl.shift hpc (by simp))
    · exact leftAt_close
  · exact hl

theorem project_left (hl : LeftAt s x) {p : Projection} (hok : NoWriterReturns s (.project x p)) : LeftAt (project s x p) x := by
  unfold project
  split
  · exact leftAt_close
  · exact leftAt_within (by simp) (by simp)
  · exact leftAt_exit fun _ _ => isCurrent_clearIfCurrent_self _
  · rename_i t hne hnc hpc
    refine leftAt_exit fun _ hlive => ?_
    cases t with
    | operate stamp op => exact hok.of_returns (by simp [returnsUnasked, hpc])
    | enter => exact (hne rfl).elim
    | claimControl takeover stamp size => exact (hnc _ _ _ rfl).elim
    | _ => simp [hpc, Pc.live, Task.inWorkspace] at hlive
  · rename_i t w hpc
    exact leftAt_goto (hl.shift hpc (by simp))
  · exact leftAt_close
  · rename_i hpc
    exact leftAt_exit fun _ _ => hok.of_returns (by simp [returnsUnasked, hpc])
  · split_ifs
    · exact leftAt_close
    · exact leftAt_put (by simp [Pc.returning])
  · exact hl

theorem tryDispatch_left (hl : LeftAt s x) {pc : Pc} (hp : pc.returning = true → isCurrent x s.current = false) :
    LeftAt (tryDispatch s x pc) x := by
  unfold tryDispatch
  split_ifs
  · exact hl
  · exact leftAt_goto hp

theorem receive_left (hl : LeftAt s x) {f : Frame} (hok : NoWriterReturns s (.receive x f)) :
    LeftAt (step s (.receive x f)) x := by
  simp only [step]
  split
  · rename_i hpc
    -- the chooser is no workspace: nothing returns from one
    have hidle : LeftAt (s.exit x .chooser) x := leftAt_exit fun _ hlive => by simp [hpc, Pc.live] at hlive
    cases f with
    | sessionSelect | writer | sessionCreate =>
      simp only [receiveChooser]
      split_ifs <;> first | exact hl | exact leftAt_goto (by simp [Pc.returning])
    | sessionRefresh =>
      simp only [receiveChooser]
      split_ifs <;> first | exact hl | exact hidle
    | _ => exact leftAt_close
  · rename_i hpc
    cases f with
    | workspaceReturnToChooser stamp =>
      simp only [receiveWorkspace]
      split_ifs with hm
      · exact leftAt_exit fun _ _ => hok.of_returns (by simp [returnsUnasked, hpc, hm])
      · exact hl
    | writer takeover stamp size =>
      simp only [receiveWorkspace]
      split_ifs
      · exact hl
      · exact tryDispatch_left hl (by simp [Pc.returning])
    | operation stamp op =>
      simp only [receiveWorkspace]
      split
      · exact hl
      · exact hl
      · exact leftAt_close
      · exact tryDispatch_left hl (by simp [Pc.returning])
    | _ => exact leftAt_close
  · exact hl

/-- the attachment itself moves -/
theorem step_leftAt (h : Inv s) (hl : LeftAt s x) {o : Op} (ho : o.actor = some x) (hok : NoWriterReturns s o) :
    LeftAt (step s o) x := by
  cases o with
  | route b => simp [Op.actor] at ho
  | receive z f =>
    obtain rfl : z = x := by simpa [Op.actor] using ho
    exact receive_left hl hok
  | command z answer =>
    obtain rfl : z = x := by simpa [Op.actor] using ho
    exact command_left hl hok
  | project z p =>
    obtain rfl : z = x := by simpa [Op.actor] using ho
    exact project_left hl hok
  | proceed z =>
    obtain rfl : z = x := by simpa [Op.actor] using ho
    simp only [step]
    split
    · rename_i hpc
      exact proceed_left h hpc hl hok
    · exact hl
  | probed z | started z =>
    obtain rfl : z = x := by simpa [Op.actor] using ho
    simp only [step]
    split_ifs
    · exact leftAt_put (by simp [Pc.returning])
    · exact hl
  | directive z =>
    obtain rfl : z = x := by simpa [Op.actor] using ho
    simp only [step]
    split
    · exact leftAt_put (by simp [Pc.returning])
    · rename_i hpc hd
      exact leftAt_exit fun _ _ => hok.of_returns (by simp [returnsUnasked, hpc, hd])
    · exact hl
  | hangUp z close =>
    obtain rfl : z = x := by simpa [Op.actor] using ho
    simp only [step]
    split
    · exact leftAt_close
    · exact leftAt_close
    · exact leftAt_goto (by simp [Pc.returning])
    · rename_i hpc
      refine leftAt_exit fun he _ => ?_
      cases close with
      | true => simp at he
      | false => exact hok.of_returns (by simp [returnsUnasked, hpc])
    · exact hl
  | refresh z =>
    obtain rfl : z = x := by simpa [Op.actor] using ho
    simp only [step]
    split_ifs
    · exact tryDispatch_left hl (by simp [Pc.returning])
    · exact hl
  | acquire z =>
    obtain rfl : z = x := by simpa [Op.actor] using ho
    simp only [step]
    split
    · rename_i t hpc
      refine tryDispatch_left hl fun hr => hl ?_
      rw [hpc]
      cases t with
      | leave close => cases close <;> first | rfl | simp [Pc.returning] at hr
      | _ => simp [Pc.returning] at hr
    · exact hl
  | lock z =>
    obtain rfl : z = x := by simpa [Op.actor] using ho
    simp only [step]
    split
    · rename_i t hpc
      by_cases hst : s.state.isSome = true
      · rw [if_pos hst]
        exact hl
      · rw [if_neg hst]
        split
        · split_ifs
          · exact leftAt_close
          · exact leftAt_within (by simp) (by simp)
        · refine leftAt_goto fun hr => hl ?_
          obtain rfl := returning_critical (by simp) hr
          rw [hpc]
          rfl
    · exact hl
  | reply z sent =>
    obtain rfl : z = x := by simpa [Op.actor] using ho
    simp only [step]
    split
    · rename_i t r e hpc
      refine leftAt_exit fun he hlive => hl ?_
      cases sent with
      | false => simp at he
      | true =>
        obtain rfl : e = .chooser := by simpa using he
        rw [hpc] at hlive ⊢
        cases t <;> simp_all [Pc.returning, Pc.live, Task.inWorkspace]
    · rename_i t r hpc
      split_ifs
      · exact leftAt_goto (hl.shift hpc (by simp))
      · exact leftAt_close
    · exact hl
  | unavailable z ssh =>
    obtain rfl : z = x := by simpa [Op.actor] using ho
    simp only [step]
    split
    · split_ifs
      · exact leftAt_close
      · exact leftAt_within (by simp) (by simp)
    · exact hl

theorem step_left (h : Inv s) (hl : ∀ y, LeftAt s y) {o : Op} (hok : NoWriterReturns s o) (y : Uuid) : LeftAt (step s o) y := by
  cases ha : o.actor with
  | none =>
    cases o with
    | route b => exact hl y
    | _ => simp [Op.actor] at ha
  | some x =>
    by_cases hy : y = x
    · subst hy
      exact step_leftAt h (hl y) ha hok
    · intro hr
      have hm := step_moves h ha
      rw [hm.pc hy] at hr
      by_contra hcur
      rcases hm.pointer with hc | ⟨t', p', hpc', hgain⟩
      · rw [hc] at hcur
        exact hcur (hl y hr)
      · rcases hgain y (by simpa using hcur) with hold | ⟨rfl, -⟩
        · simp [hl y hr] at hold
        · exact hy rfl

theorem run_left (epoch : ℤ) (ops : List Op) (hok : Machine.Along step NoWriterReturns (init epoch) ops) :
    Inv (run (init epoch) ops) ∧ ∀ y, LeftAt (run (init epoch) ops) y :=
  Machine.run_inv_along (I := fun s => Inv s ∧ ∀ y, LeftAt s y)
    (fun _ o ho hs => ⟨step_inv hs.1 o, step_left hs.1 hs.2 ho⟩) _ ops hok
    ⟨inv_init epoch, fun _ hr => by simp [init, Attachment.init, Pc.returning] at hr⟩

/-- an exit leaves the pointer to nobody or to another attachment -/
theorem not_current_of_exit (hl : LeftAt s x) {o : Op} (he : exitProcessed s o = some x) :
    isCurrent x (step s o).current = false := by
  cases o with
  | proceed z =>
    simp only [exitProcessed] at he
    split at he
    · rename_i hpc
      obtain rfl : z = x := by simpa using he
      have hc := hl (by rw [hpc]; rfl)
      simp only [step, hpc, proceed, start]
      show isCurrent z (clearControl z s.current) = false
      cases hcur : s.current with
      | none => rfl
      | some g =>
        rw [hcur] at hc
        have hne : g.attachment ≠ z := by simpa [isCurrent] using hc
        simp [clearControl, modifyCurrent, isCurrent, hne]
    · rename_i hpc
      obtain rfl : z = x := by simpa using he
      simp only [step, hpc, proceed, start]
      exact isCurrent_clearIfCurrent_self _
    · simp at he
  | _ => simp [exitProcessed] at he

/-- the writer detaches its Browser -/
def writerDetaches : List Op := [.receive 1 .workspaceDetach, .acquire 1, .lock 1, .proceed 1, .acquire 1, .lock 1]

/-- the writer returns to the chooser, up to `clear_control` -/
def writerReturns : List Op := [.receive 1 (.workspaceReturnToChooser ⟨['1'], 12⟩), .acquire 1, .lock 1]

/-- after a new probe its client selects a session; the new control client starts and the block takes its mutexes -/
def selectsAgain : List Op :=
  [.probed 1 31 [(['$', '1'], 8)], .receive 1 (.sessionSelect ⟨['1'], 31⟩ ['$', '1'] 8), .started 1, .acquire 1, .lock 1,
    .proceed 1]

end OwlMux.Writer
