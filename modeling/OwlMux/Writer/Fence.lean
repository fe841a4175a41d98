/-
Writer fencing of target mutations (`handle_workspace_frame`, `SessionCreate`, `mutation_result` in
`owlmux-server/src/attachment.rs`): every `send-keys`, `select-window`, `select-pane`, client resize and session creation
is sent by the current writer, under both mutexes, after a `current_route` check, for a request of the present epochs.

`sends` reads the mutation off a step, `claimSucceeds` the success of a claim or takeover. An attachment becomes the
writer only inside a claim of its own (`BecomesWriter`), before that claim has succeeded: its resize is already sent as
the writer's, and the claim may still fail on it.

Results:
- `writer_fenced`: the three fences, for every schedule and every mutation in it;
- `claim_resizes_before_success`: a takeover that has not succeeded sends its resize.
-/
import Mathlib.Tactic
import OwlMux.Writer.Moves

namespace OwlMux.Writer

open OwlMux.Relay (Uuid Text)

/-- a target mutation: who sent it, for which request, and how it ended -/
structure Sent where
  attachment : Uuid
  command : Command
  request : Option Stamp
  outcome : Outcome
deriving DecidableEq, Repr

/-- the client request a block answers -/
def Task.request : Task → Option Stamp
  | .create stamp _ | .claim _ stamp _ | .operate stamp _ | .claimControl _ stamp _ => some stamp
  | _ => none

/-- the mutation a step sends -/
def sends (s : St) : Op → Option Sent
  | .command x answer =>
    match (s.att x).pc with
    | .critical t p => (mutation s x t p).map fun c => ⟨x, c, t.request, answer.outcome⟩
    | _ => none
  | _ => none

/-- the attachment whose claim or takeover returns success in a step -/
def claimSucceeds (s : St) : Op → Option Uuid
  | .reply x true =>
    match (s.att x).pc with
    | .critical t (.reply r _) => if t.claims && decide (r.outcome = .succeeded) then some x else none
    | _ => none
  | _ => none

/-- the epoch the attachment's requests have to carry: of its workspace or, outside one, of its chooser -/
def Attachment.epoch (a : Attachment) : Uuid := if a.pc.live then a.workspace.epoch else a.selectionEpoch

/-- the attachment is made the current writer inside a claim of its own -/
def BecomesWriter (s : St) (o : Op) (x : Uuid) : Prop :=
  isCurrent x s.current = false ∧ isCurrent x (step s o).current = true ∧
    ∃ t p, (s.att x).pc = .critical t p ∧ t.claims = true

variable {s : St} {x y : Uuid}

/-! ## Under the mutexes -/

/-- a mutation is sent from the two places behind the checks -/
theorem sends_place {o : Op} {m : Sent} (h : sends s o = some m) :
    ∃ t p answer, o = .command m.attachment answer ∧ (s.att m.attachment).pc = .critical t p ∧ m.request = t.request ∧
      m.outcome = answer.outcome ∧ (mutation s m.attachment t p).isSome = true ∧ ((∃ old, p = .resize old) ∨ p = .mutate) := by
  cases o with
  | command x answer =>
    simp only [sends] at h
    split at h
    · rename_i t p hpc
      obtain ⟨c, hc, rfl⟩ := Option.map_eq_some_iff.1 h
      refine ⟨t, p, answer, rfl, hpc, rfl, rfl, by simp [hc], ?_⟩
      cases p with
      | resize old => exact Or.inl ⟨old, rfl⟩
      | mutate => exact Or.inr rfl
      | _ => simp [mutation] at hc
    · simp at h
  | _ => simp [sends] at h

/-- what the dispatch check of a block says about the request it answers -/
theorem request_current {epoch : ℤ} {t : Task} {p : At} {a : Attachment} (hpc : a.pc = .critical t p) (h : t.Fresh epoch a)
    {stamp : Stamp} (hr : t.request = some stamp) :
    matchesConnectionEpoch stamp.connectionEpoch epoch = true ∧ stamp.epoch = a.epoch := by
  cases t with
  | create | claim =>
    obtain rfl : _ = stamp := by simpa [Task.request] using hr
    simpa [Task.Fresh, Attachment.stale, Attachment.epoch, Pc.live, hpc, Task.inWorkspace] using h
  | operate | claimControl =>
    obtain rfl : _ = stamp := by simpa [Task.request] using hr
    have h' := h
    simp [Task.Fresh, Workspace.matches] at h'
    simpa [Attachment.epoch, Pc.live, hpc, Task.inWorkspace, and_comm] using h'
  | _ => simp [Task.request] at hr

/-- **Fence.** A mutation is sent by the holder of both mutexes, the current writer, after a route check, for a current
request. -/
theorem sends_fenced (h : Inv s) {o : Op} {m : Sent} (hs : sends s o = some m) :
    s.dispatch = some m.attachment ∧ s.state = some m.attachment ∧ isCurrent m.attachment s.current = true ∧
      s.checked = true ∧ ∀ stamp, m.request = some stamp →
        matchesConnectionEpoch stamp.connectionEpoch s.connectionEpoch = true ∧ stamp.epoch = (s.att m.attachment).epoch := by
  obtain ⟨t, p, answer, -, hpc, hreq, -, -, hp⟩ := sends_place hs
  obtain ⟨hfresh, hf⟩ := h.place hpc
  have hplace : p.isReply = false ∧ isCurrent m.attachment s.current = true ∧ s.checked = true := by
    rcases hp with ⟨old, rfl⟩ | rfl
    · exact ⟨rfl, hf.2.2.1, hf.2.1⟩
    · exact ⟨rfl, hf.2.2, hf.2.1⟩
  refine ⟨(h.dispatch _).2 ?_, (h.state _).2 ?_, hplace.2.1, hplace.2.2, fun stamp hst => ?_⟩
  · simp only [hpc, Pc.holdsDispatch]
  · simp only [hpc, Pc.holdsState]
  exact request_current hpc (hfresh hplace.1) (hreq ▸ hst)

/-! ## Between a claim and the next mutation -/

theorem claimSucceeds_current (h : Inv s) {o : Op} (hs : claimSucceeds s o = some y) :
    isCurrent y s.current = true ∧ (step s o).current = s.current := by
  cases o with
  | reply z sent =>
    cases sent with
    | false => simp [claimSucceeds] at hs
    | true =>
      simp only [claimSucceeds] at hs
      split at hs
      · rename_i t r e hpc
        split_ifs at hs with hr
        obtain rfl : z = y := by simpa using hs
        simp only [Bool.and_eq_true, decide_eq_true_eq] at hr
        exact ⟨(h.place hpc).2.2 hr.1 hr.2, by simp [step, hpc, St.exit, St.put]⟩
      · simp at hs
  | _ => simp [claimSucceeds] at hs

/-- only its own claim makes an attachment the writer -/
theorem becomesWriter_of_step (h : Inv s) (o : Op) (hx : isCurrent x s.current = false)
    (hx' : isCurrent x (step s o).current = true) : BecomesWriter s o x := by
  refine ⟨hx, hx', ?_⟩
  cases ha : o.actor with
  | none =>
    cases o with
    | route b => exact absurd hx' (by simp [step, hx])
    | _ => simp [Op.actor] at ha
  | some z =>
    rcases (step_moves h ha).pointer with hc | ⟨t, p, hpc, hgain⟩
    · rw [hc, hx] at hx'; cases hx'
    · rcases hgain x hx' with hold | ⟨rfl, ht⟩
      · rw [hx] at hold; cases hold
      · exact ⟨t, p, hpc, ht⟩

/-- an attachment that is the writer after a schedule and was not before has become it by a claim of its own -/
theorem becomesWriter_of_run (h : Inv s) (ops : List Op) (hx : isCurrent x s.current = false)
    (hx' : isCurrent x (run s ops).current = true) :
    ∃ b d c, ops = b ++ d :: c ∧ BecomesWriter (run s b) d x := by
  induction ops generalizing s with
  | nil => exact absurd hx' (by simp [run, hx])
  | cons o ops ih =>
    cases hstep : isCurrent x (step s o).current with
    | true => exact ⟨[], o, ops, rfl, becomesWriter_of_step h o hx hstep⟩
    | false =>
      obtain ⟨b, d, c, rfl, hb⟩ := ih (step_inv h o) hstep hx'
      exact ⟨o :: b, d, c, rfl, hb⟩

/-! ## Ambiguous mutations -/

/-- the places from which a block only returns -/
def At.ending : At → Bool
  | .closeOld .. | .reply .. => true
  | _ => false

/-- a mutation of `x` in the present block ended `Ambiguous`: the pointer is about to be cleared, or is no longer its own -/
def Tainted (s : St) (x : Uuid) : Prop :=
  ∃ t p, (s.att x).pc = .critical t p ∧ (p = .mutated .ambiguous ∨ (∃ old, p = .resized old .ambiguous) ∨
    isCurrent x s.current = false ∧ p.ending = true)

/-- `x` has left its block and is not the writer -/
def Released (s : St) (x : Uuid) : Prop := s.dispatch ≠ some x ∧ isCurrent x s.current = false

theorem released_exit (s : St) (e : Exit) (h : isCurrent x s.current = false) : Released (s.exit x e) x := by
  refine ⟨?_, h⟩
  show Mutex.hand s.dispatch x _ ≠ some x
  rw [(Pc.quiet_holds (quiet_exit _ e)).1]
  exact Mutex.hand_false_ne _ _

theorem tainted_goto (s : St) (t : Task) {p : At} (h : isCurrent x s.current = false) (hp : p.ending = true) :
    Tainted (s.goto x (.critical t p)) x :=
  ⟨t, p, by simp [St.goto, put_att_self], Or.inr (Or.inr ⟨h, hp⟩)⟩

theorem tainted_giveUp (s : St) (t : Task) (old : Option Sender) (r : Option Reply) (h : isCurrent x s.current = false) :
    Tainted (giveUp s x t old r) x ∨ Released (giveUp s x t old r) x := by
  unfold giveUp
  split
  · exact Or.inl (tainted_goto s t h rfl)
  · exact Or.inl (tainted_goto s t h rfl)
  · exact Or.inr (released_exit s .close h)

theorem Tainted.deliver {k : Sender} {d : Directive} (h : Tainted s x) : Tainted (s.deliver k d) x := by
  obtain ⟨t, p, hpc, hp⟩ := h
  exact ⟨t, p, by rw [deliver_pc]; exact hpc, hp⟩

/-- the block itself: from an ambiguous mutation it clears the pointer, then only returns -/
theorem proceed_tainted {t : Task} {p : At} (ht : t.flags = true ∨ ∀ old o, p ≠ .resized old o)
    (hpc : (s.att x).pc = .critical t p) (hp : p = .mutated .ambiguous ∨ (∃ old, p = .resized old .ambiguous) ∨
      isCurrent x s.current = false ∧ p.ending = true) :
    Tainted (proceed s x t p) x ∨ Released (proceed s x t p) x := by
  have hclear : isCurrent x (clearIfCurrent x s.current) = false := isCurrent_clearIfCurrent_self _
  rcases hp with rfl | ⟨old, rfl⟩ | ⟨hcur, hend⟩
  · simp only [proceed]
    split_ifs
    · exact Or.inr (released_exit _ _ hclear)
    · cases t with
      | create => exact Or.inl (tainted_goto _ _ rfl rfl)
      | _ => exact Or.inl (tainted_goto _ _ hclear rfl)
  · cases t with
    | enter => exact Or.inr (released_exit _ _ hclear)
    | claimControl =>
      simp only [proceed]
      split_ifs with h1 h2
      · exact tainted_giveUp _ _ _ _ hclear
      · exact tainted_giveUp _ _ _ _ hclear
      · simp at h2
    | _ => simp [Task.flags] at ht
  · cases p with
    | closeOld old r =>
      have hnext : Tainted (afterClose s x t r) x ∨ Released (afterClose s x t r) x := by
        unfold afterClose
        split
        · exact Or.inr (released_exit s .close hcur)
        · exact Or.inl (tainted_goto s _ hcur rfl)
        · exact Or.inl (tainted_goto s _ hcur rfl)
      simp only [proceed]
      split_ifs
      · exact hnext
      · exact Or.inl ⟨t, _, hpc, Or.inr (Or.inr ⟨hcur, rfl⟩)⟩
      · rcases hnext with hn | hn
        · exact Or.inl hn.deliver
        · exact Or.inr hn
    | reply r e => exact Or.inl ⟨t, _, hpc, Or.inr (Or.inr ⟨hcur, rfl⟩)⟩
    | _ => simp [At.ending] at hend

theorem step_tainted (h : Inv s) (ht : Tainted s x) (o : Op) : Tainted (step s o) x ∨ Released (step s o) x := by
  obtain ⟨t, p, hpc, hp⟩ := ht
  by_cases ha : o.actor = some x
  · have hstay : Tainted s x := ⟨t, p, hpc, hp⟩
    cases o with
    | proceed z =>
      obtain rfl : z = x := by simpa [Op.actor] using ha
      have hfl : t.flags = true ∨ ∀ old o, p ≠ .resized old o := by
        have hf := (h.place hpc).2
        cases p with
        | resized => exact Or.inl hf.1
        | _ => exact Or.inr (by simp)
      simp only [step, hpc]
      exact proceed_tainted hfl hpc hp
    | reply z sent =>
      obtain rfl : z = x := by simpa [Op.actor] using ha
      rcases hp with rfl | ⟨old, rfl⟩ | ⟨hcur, hend⟩
      · simpa [step, hpc] using Or.inl hstay
      · simpa [step, hpc] using Or.inl hstay
      · cases p with
        | closeOld => simpa [step, hpc] using Or.inl hstay
        | reply r e =>
          simp only [step, hpc]
          exact Or.inr (released_exit s _ hcur)
        | _ => simp [At.ending] at hend
    | command z answer =>
      obtain rfl : z = x := by simpa [Op.actor] using ha
      left
      have : command s z answer = s := by
        rcases hp with rfl | ⟨old, rfl⟩ | ⟨-, hend⟩
        · simp [command, hpc]
        · simp [command, hpc]
        · cases p <;> simp_all [At.ending, command]
      simpa [step, this] using hstay
    | project z q =>
      obtain rfl : z = x := by simpa [Op.actor] using ha
      left
      have : project s z q = s := by
        rcases hp with rfl | ⟨old, rfl⟩ | ⟨-, hend⟩
        · cases q <;> simp [project, hpc]
        · cases q <;> simp [project, hpc]
        · cases p <;> cases q <;> simp_all [At.ending, project]
      simpa [step, this] using hstay
    | unavailable z ssh =>
      obtain rfl : z = x := by simpa [Op.actor] using ha
      left
      have : step s (.unavailable z ssh) = s := by
        rcases hp with rfl | ⟨old, rfl⟩ | ⟨-, hend⟩
        · simp [step, hpc]
        · simp [step, hpc]
        · cases p <;> simp_all [At.ending, step]
      rwa [this]
    | route b => simp [Op.actor] at ha
    | _ =>
      obtain rfl : _ = x := by simpa [Op.actor] using ha
      left
      simpa [step, hpc] using hstay
  · obtain ⟨h1, h2⟩ := step_frame h (by rw [hpc]; rfl : (s.att x).pc.holdsState = true) ha
    exact Or.inl ⟨t, p, by rw [h1, hpc], by rw [h2]; exact hp⟩

theorem sends_tainted {o : Op} {m : Sent} (hs : sends s o = some m) (hm : m.outcome = .ambiguous) :
    Tainted (step s o) m.attachment := by
  obtain ⟨t, p, answer, rfl, hpc, -, hout, hmut, hp⟩ := sends_place hs
  have ho : answer.outcome = .ambiguous := hout ▸ hm
  rcases hp with ⟨old, rfl⟩ | rfl
  · refine ⟨t, .resized old .ambiguous, ?_, Or.inr (Or.inl ⟨old, rfl⟩)⟩
    simp [step, command, hpc, hmut, St.goto, put_att_self, ho]
  · refine ⟨t, .mutated .ambiguous, ?_, Or.inl rfl⟩
    simp [step, command, hpc, hmut, St.goto, put_att_self, ho]

/-- as long as `x` holds the dispatch mutex it stays tainted; when it lets go it is not the writer -/
theorem run_tainted (h : Inv s) (ht : Tainted s x) (ops : List Op)
    (hold : ∀ a b, ops = a ++ b → b ≠ [] → (run s a).dispatch = some x) :
    Tainted (run s ops) x ∨ Released (run s ops) x := by
  induction ops generalizing s with
  | nil => exact Or.inl ht
  | cons o ops ih =>
    rcases step_tainted h ht o with ht' | hr
    · exact ih (step_inv h o) ht' fun a b hab hb => hold (o :: a) b (by simp [hab]) hb
    · cases ops with
      | nil => exact Or.inr hr
      | cons o' ops => exact (hr.1 (hold [o] (o' :: ops) rfl (by simp))).elim

/-! ## The fences over whole runs -/

/-- **Writer-fenced mutations.** In every schedule, a mutation of `x` is sent while `x` holds the dispatch and state
mutexes as the current writer, after a route check under the dispatch mutex, for a request that carried its present
epochs; if another attachment's claim has succeeded before, `x` has since been made the writer by a claim of its own;
and if the mutation ends `Ambiguous`, `x` is not the writer when it lets go of the mutexes. -/
theorem writer_fenced (epoch : ℤ) (pre : List Op) (o : Op) (m : Sent) (hs : sends (run (init epoch) pre) o = some m) :
    ((run (init epoch) pre).dispatch = some m.attachment ∧ (run (init epoch) pre).state = some m.attachment ∧
      isCurrent m.attachment (run (init epoch) pre).current = true ∧ (run (init epoch) pre).checked = true ∧
      ∀ stamp, m.request = some stamp → matchesConnectionEpoch stamp.connectionEpoch epoch = true ∧
        stamp.epoch = ((run (init epoch) pre).att m.attachment).epoch) ∧
    (∀ a c b y, pre = a ++ c :: b → claimSucceeds (run (init epoch) a) c = some y → y ≠ m.attachment →
      ∃ b₁ d b₂, b = b₁ ++ d :: b₂ ∧ BecomesWriter (run (init epoch) (a ++ c :: b₁)) d m.attachment) ∧
    (m.outcome = .ambiguous → ∀ post,
      (∀ a b, post = a ++ b → b ≠ [] → (run (init epoch) (pre ++ o :: a)).dispatch = some m.attachment) →
      (run (init epoch) (pre ++ o :: post)).dispatch ≠ some m.attachment →
      isCurrent m.attachment (run (init epoch) (pre ++ o :: post)).current = false) := by
  have hinv := run_inv epoch pre
  have hsplit : ∀ a c b, run (init epoch) (a ++ c :: b) = run (step (run (init epoch) a) c) b := by
    intro a c b
    exact Machine.run_append (init epoch) a (c :: b)
  have hfence := sends_fenced hinv hs
  refine ⟨?_, ?_, ?_⟩
  · rwa [run_epoch] at hfence
  · rintro a c b y rfl hy hne
    have ha := run_inv epoch a
    obtain ⟨hcur, hkeep⟩ := claimSucceeds_current ha hy
    have hx : isCurrent m.attachment (step (run (init epoch) a) c).current = false := by
      rw [hkeep]
      exact Bool.eq_false_iff.2 fun hx => hne (isCurrent_unique hcur hx)
    have hx' := hfence.2.2.1
    rw [hsplit] at hx'
    obtain ⟨b₁, d, b₂, rfl, hb⟩ := becomesWriter_of_run (step_inv ha c) b hx hx'
    exact ⟨b₁, d, b₂, rfl, by rw [hsplit]; exact hb⟩
  · intro hamb post hold hrel
    have ht := sends_tainted hs hamb
    have hi := step_inv hinv o
    rw [hsplit] at hrel ⊢
    rcases run_tainted hi ht post fun a b hab hb => by rw [← hsplit]; exact hold a b hab hb with ht' | hr
    · obtain ⟨t, p, hpc, -⟩ := ht'
      have hi' := Machine.run_inv (I := Inv) (fun _ o h => step_inv h o) _ post hi
      refine (hrel ((hi'.dispatch _).2 ?_)).elim
      show ((Machine.run step (step (run (init epoch) pre) o) post).att m.attachment).pc.holdsDispatch = true
      rw [show ((Machine.run step (step (run (init epoch) pre) o) post).att m.attachment).pc = _ from hpc]
      rfl
    · exact hr.2

/-! ## A takeover that resizes and fails -/

/-- successful claims of a schedule, in order -/
def successes (s : St) : List Op → List Uuid
  | [] => []
  | o :: ops => (claimSucceeds s o).toList ++ successes (step s o) ops

def small : ClientSize := ⟨80, 24⟩

/-- attachment 1 claims in its chooser -/
def firstClaim : List Op :=
  [.probed 1 11 [(['$', '0'], 7)], .receive 1 (.writer false ⟨['1'], 11⟩ small), .acquire 1, .lock 1, .proceed 1, .reply 1 true]

/-- attachment 2 takes over in its own; the last step is its success -/
def secondTakeover : List Op :=
  [.probed 2 22 [], .receive 2 (.writer true ⟨['1'], 22⟩ small), .acquire 2, .lock 2, .proceed 2]

/-- attachment 1 opens a workspace and takes over again, up to its resize -/
def thirdTakeover : List Op :=
  [.receive 1 (.sessionSelect ⟨['1'], 11⟩ ['$', '0'] 7), .started 1, .acquire 1, .lock 1, .proceed 1,
    .project 1 (.installed ⟨12, [], [], []⟩), .proceed 1, .receive 1 (.writer true ⟨['1'], 12⟩ small), .lock 1, .proceed 1,
    .command 1 .succeeded, .command 1 .succeeded, .proceed 1]

/-- the fences hold of that resize -/
theorem thirdTakeover_fenced :
    sends (run (init 1) (firstClaim ++ secondTakeover ++ .reply 2 true :: thirdTakeover)) (.command 1 .failed) =
      some ⟨1, .resize small, some ⟨['1'], 12⟩, .failed⟩ ∧
    (run (init 1) (firstClaim ++ secondTakeover ++ .reply 2 true :: thirdTakeover)).state = some 1 ∧
    isCurrent 1 (run (init 1) (firstClaim ++ secondTakeover ++ .reply 2 true :: thirdTakeover)).current = true := by
  have hs : sends (run (init 1) (firstClaim ++ secondTakeover ++ .reply 2 true :: thirdTakeover)) (.command 1 .failed) =
      some ⟨1, .resize small, some ⟨['1'], 12⟩, .failed⟩ := by decide +kernel
  obtain ⟨⟨-, hst, hcur, -⟩, -⟩ := writer_fenced 1 _ _ _ hs
  exact ⟨hs, hst, hcur⟩

/-- **A claim sends its resize before it succeeds.** After attachment 2's takeover has succeeded, attachment 1's takeover
sends a resize that the target rejects; no claim of attachment 1 has succeeded in between. -/
theorem claim_resizes_before_success :
    ¬ ∀ (epoch : ℤ) (a : List Op) (c : Op) (b : List Op) (o : Op) (y : Uuid) (m : Sent),
      claimSucceeds (run (init epoch) a) c = some y → sends (run (init epoch) (a ++ c :: b)) o = some m → y ≠ m.attachment →
      m.attachment ∈ successes (run (init epoch) (a ++ [c])) b := by
  intro h
  have h1 : claimSucceeds (run (init 1) (firstClaim ++ secondTakeover)) (.reply 2 true) = some 2 := by decide +kernel
  have h2 : sends (run (init 1) (firstClaim ++ secondTakeover ++ .reply 2 true :: thirdTakeover)) (.command 1 .failed) =
      some ⟨1, .resize small, some ⟨['1'], 12⟩, .failed⟩ := by decide +kernel
  have h3 : successes (run (init 1) (firstClaim ++ secondTakeover ++ [.reply 2 true])) thirdTakeover = [] := by
    decide +kernel
  have := h 1 _ _ thirdTakeover _ 2 _ h1 h2 (by decide)
  rw [h3] at this
  simp at this

end OwlMux.Writer
