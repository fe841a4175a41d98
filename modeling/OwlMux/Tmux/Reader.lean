/-
The reader of responses: what one line does, what a whole response does, and which blocks it leaves unread.

Results:
- `nextLine_cases`: everything a read can return;
- `queueNotice_eq`: a notification is queued whole, or refused when the queue is full;
- `readResponse_spec`: from a state in which the next block is the answer to `c`, an accepted response is that answer and
  the block has been read to its end; so is a refusal by the target. Every other outcome is one no operation survives.
-/
import Mathlib.Tactic
import OwlMux.Tmux.Adapter

namespace OwlMux.Tmux

open OwlMux.Relay (Text byteLen)

variable {α β : Type} {s s' : St}

/-! ## Sequencing -/

theorem bind_apply (x : Io α) (f : α → Io β) (s : St) :
    (x >>= f) s = match x s with
      | (.ok a, s) => f a s
      | (.error e, s) => (.error e, s)
      | (.waiting, s) => (.waiting, s) := rfl

theorem bind_of_ok {x : Io α} {a : α} (h : x s = (.ok a, s')) (f : α → Io β) : (x >>= f) s = f a s' := by
  rw [bind_apply, h]

theorem bind_of_error {x : Io α} {e : TmuxError} (h : x s = (.error e, s')) (f : α → Io β) :
    (x >>= f) s = (.error e, s') := by
  rw [bind_apply, h]

theorem bind_of_waiting {x : Io α} (h : x s = (.waiting, s')) (f : α → Io β) : (x >>= f) s = (.waiting, s') := by
  rw [bind_apply, h]

@[simp] theorem pure_apply (a : α) (s : St) : (pure a : Io α) s = (.ok a, s) := rfl
@[simp] theorem ioPure_apply (a : α) (s : St) : (Io.pure a : Io α) s = (.ok a, s) := rfl
@[simp] theorem fail_apply (e : TmuxError) (s : St) : (Io.fail e : Io α) s = (.error e, s) := rfl
@[simp] theorem modify_apply (f : St → St) (s : St) : Io.modify f s = (.ok (), f s) := rfl
@[simp] theorem lift_ok (a : α) (s : St) : Io.lift (.ok a) s = (.ok a, s) := rfl
@[simp] theorem lift_error (e : TmuxError) (s : St) : (Io.lift (.error e) : Io α) s = (.error e, s) := rfl

/-! ## One line -/

/-- the ghosts that tell of a misalignment -/
structure SameMarks (s s' : St) : Prop where
  unread : s'.unread = s.unread
  stray : s'.stray = s.stray
  crossed : s'.crossed = s.crossed

theorem SameMarks.refl (s : St) : SameMarks s s := ⟨rfl, rfl, rfl⟩

theorem SameMarks.trans {t : St} (h : SameMarks s s') (k : SameMarks s' t) : SameMarks s t :=
  ⟨k.unread.trans h.unread, k.stray.trans h.stray, k.crossed.trans h.crossed⟩

/-- an error that no operation continues after: neither the target's refusal nor a change of the projection -/
def TmuxError.fatal : TmuxError → Bool
  | .target | .changed => false
  | _ => true

/-- the read, or the operation, has not succeeded, and not for a reason a caller goes on after -/
def Res.stopped : Res α → Bool
  | .ok _ => false
  | .error e => e.fatal
  | .waiting => true

/-- the lines of an answer behind its opening record -/
def Answer.wire (a : Answer) (c : Command) (rows : List Bytes) : List WireLine :=
  rows.map (fun r => ⟨r, none⟩) ++ [⟨a.closing, some (c, a.rows.map stripNewline, a.ok)⟩]

/-- the command lines left after an answer to the first command -/
def Answer.leaves (a : Answer) (cs : List Command) (lines : List (List Command)) : List (List Command) :=
  if a.ok && !cs.isEmpty then cs :: lines else lines

/-- what a read can return from `s` -/
inductive NextLine (s : St) : Res Bytes × St → Prop
  | stop {r : Res Bytes} {s' : St} (hr : r.stopped = true) (hm : SameMarks s s') : NextLine s (r, s')
  | note (n : Note) (ms : List Move) (hw : s.wire = []) :
      NextLine s (.ok n.line, { s with script := ms, log := s.log ++ [.note n.line] })
  | opening (a : Answer) (ms : List Move) (c : Command) (cs : List Command) (lines : List (List Command))
      (hw : s.wire = []) (hp : s.pending = (c :: cs) :: lines) :
      NextLine s (.ok a.opening, { s with script := ms, wire := a.wire c a.rows, pending := a.leaves cs lines })
  | row (l : WireLine) (w : List WireLine) (ms : List Move) (hw : s.wire = l :: w) :
      NextLine s (.ok l.line, { s with
        wire := w, script := ms, log := s.log ++ l.closes.toList.map fun c => .closed c.1 c.2.1 c.2.2 })

theorem nextLineFrom_cases (deadline : Bool) (ms : List Move) (s : St) : NextLine s (nextLineFrom deadline ms s) := by
  induction ms with
  | nil => exact .stop rfl ⟨rfl, rfl, rfl⟩
  | cons m ms ih =>
    cases m with
    | late =>
      simp only [nextLineFrom]
      split_ifs
      · exact .stop rfl ⟨rfl, rfl, rfl⟩
      · exact ih
    | broken e => exact .stop rfl ⟨rfl, rfl, rfl⟩
    | rest =>
      cases hw : s.wire with
      | nil =>
        simp only [nextLineFrom, hw]
        exact ih
      | cons l w =>
        simp only [nextLineFrom, hw, deliver]
        split_ifs
        · exact .stop rfl ⟨rfl, rfl, rfl⟩
        · exact .row l w ms hw
    | note n =>
      simp only [nextLineFrom]
      split_ifs with hw
      · simp only [deliver]
        split_ifs
        · exact .stop rfl ⟨rfl, rfl, rfl⟩
        · exact .note n ms (by simpa using hw)
      · exact ih
    | answer a =>
      simp only [nextLineFrom]
      split
      · rename_i c cs lines hw hp
        by_cases hlen : maxControlLineBytes < a.opening.length
        · rw [deliver, if_pos hlen]
          exact .stop rfl ⟨rfl, rfl, rfl⟩
        · rw [deliver, if_neg hlen]
          have h := NextLine.opening a ms c cs lines hw hp
          rwa [← List.append_nil s.log] at h
      · exact ih

/-- **Everything a read can return.** -/
theorem nextLine_cases (deadline : Bool) (s : St) : NextLine s (nextLine deadline s) := nextLineFrom_cases deadline _ s

/-! ## The queue -/

/-- the events of a notification -/
def Notice.events : Notice → List ControlEvent
  | .output paneId data => (chunks attachmentMaxTerminalChunkBytes data).map (.output paneId)
  | .refresh => [.refresh]
  | .exit => [.exit]
  | .nothing => []

def ControlEvent.bytes : ControlEvent → ℕ
  | .output _ data => data.length
  | _ => 0

/-- bytes of output among the events -/
def outputBytes (es : List ControlEvent) : ℕ := (es.map ControlEvent.bytes).sum

/-- the queue has room for the events -/
def Fits (s : St) (es : List ControlEvent) : Prop :=
  s.events.length + es.length ≤ maxQueuedEvents ∧ s.queuedOutputBytes + outputBytes es ≤ maxQueuedOutputBytes

instance (s : St) (es : List ControlEvent) : Decidable (Fits s es) := inferInstanceAs (Decidable (_ ∧ _))

/-- the state with the events queued -/
def St.push (s : St) (es : List ControlEvent) : St :=
  { s with events := s.events ++ es, queuedOutputBytes := s.queuedOutputBytes + outputBytes es }

theorem queueEvent_eq (e : ControlEvent) (s : St) :
    queueEvent e s = if s.events.length + 1 ≤ maxQueuedEvents then (.ok (), { s with events := s.events ++ [e] })
      else (.error .protocol, s) := by
  unfold queueEvent
  split_ifs <;> first | rfl | omega

theorem outputBytes_append (a b : List ControlEvent) : outputBytes (a ++ b) = outputBytes a + outputBytes b := by
  simp [outputBytes]

/-- the loop over the chunks queues them all, or fails with the queue's error -/
theorem queueChunks_eq (p : Text) (cs : List Bytes) (s : St) (h : Fits s []) :
    (Fits s (cs.map (.output p)) → queueChunks p cs s = (.ok (), s.push (cs.map (.output p)))) ∧
      (¬ Fits s (cs.map (.output p)) → ∃ s', queueChunks p cs s = (.error .protocol, s') ∧ SameMarks s s') := by
  induction cs generalizing s with
  | nil =>
    refine ⟨fun _ => ?_, fun hn => (hn h).elim⟩
    simp [queueChunks, St.push, outputBytes]
  | cons c cs ih =>
    have step : queueChunks p (c :: cs) s =
        if maxQueuedOutputBytes < s.queuedOutputBytes + c.length then
          (.error .protocol, { s with queuedOutputBytes := s.queuedOutputBytes + c.length })
        else if s.events.length + 1 ≤ maxQueuedEvents then queueChunks p cs (s.push [.output p c])
        else (.error .protocol, { s with queuedOutputBytes := s.queuedOutputBytes + c.length }) := by
      rw [queueChunks]
      split_ifs with h1 h2
      · exact bind_of_error (if_pos h1) _
      · rw [bind_of_ok (show chargeOutput c.length s = _ from if_neg h1),
          bind_of_ok (show queueEvent (.output p c) _ = _ by rw [queueEvent_eq]; exact if_pos h2)]
        simp [St.push, outputBytes, ControlEvent.bytes]
      · rw [bind_of_ok (show chargeOutput c.length s = _ from if_neg h1)]
        exact bind_of_error (by rw [queueEvent_eq]; exact if_neg h2) _
    rw [step]
    have hfits : Fits s ((c :: cs).map (.output p)) ↔
        (s.queuedOutputBytes + c.length ≤ maxQueuedOutputBytes ∧ s.events.length + 1 ≤ maxQueuedEvents) ∧
          Fits (s.push [.output p c]) (cs.map (.output p)) := by
      simp only [Fits, List.map_cons, List.length_cons, St.push, List.length_append, List.length_map,
        List.length_nil, outputBytes, ControlEvent.bytes, List.map_nil, List.sum_cons, List.sum_nil]
      omega
    by_cases h1 : maxQueuedOutputBytes < s.queuedOutputBytes + c.length
    · rw [if_pos h1]
      exact ⟨fun hf => absurd (hfits.1 hf).1.1 (by omega), fun _ => ⟨_, rfl, ⟨rfl, rfl, rfl⟩⟩⟩
    rw [if_neg h1]
    by_cases h2 : s.events.length + 1 ≤ maxQueuedEvents
    · rw [if_pos h2]
      have hpush : Fits (s.push [.output p c]) [] := by
        simp only [Fits, St.push, List.length_append, List.length_cons, List.length_nil, outputBytes, ControlEvent.bytes,
          List.map_cons, List.map_nil, List.sum_cons, List.sum_nil]
        omega
      obtain ⟨hok, herr⟩ := ih (s.push [.output p c]) hpush
      refine ⟨fun hf => ?_, fun hn => ?_⟩
      · rw [hok (hfits.1 hf).2]
        simp [St.push, outputBytes, Nat.add_assoc]
      · obtain ⟨s', hs, hm⟩ := herr fun hf => hn (hfits.2 ⟨⟨by omega, h2⟩, hf⟩)
        exact ⟨s', hs, ⟨hm.unread, hm.stray, hm.crossed⟩⟩
    · rw [if_neg h2]
      exact ⟨fun hf => absurd (hfits.1 hf).1.2 h2, fun _ => ⟨_, rfl, ⟨rfl, rfl, rfl⟩⟩⟩

/-- **A notification is queued whole, or refused.** -/
theorem queueNotice_eq (n : Notice) (s : St) (h : Fits s []) :
    (Fits s n.events → queueNotice n s = (.ok (), s.push n.events)) ∧
      (¬ Fits s n.events → ∃ s', queueNotice n s = (.error .protocol, s') ∧ SameMarks s s') := by
  have single : ∀ e : ControlEvent, e.bytes = 0 → (Fits s [e] → queueEvent e s = (.ok (), s.push [e])) ∧
      (¬ Fits s [e] → ∃ s', queueEvent e s = (.error .protocol, s') ∧ SameMarks s s') := by
    intro e he
    have hb : outputBytes [e] = 0 := by simp [outputBytes, he]
    have hf : Fits s [e] ↔ s.events.length + 1 ≤ maxQueuedEvents := by
      have h2 := h.2
      simp only [outputBytes, List.map_nil, List.sum_nil] at h2
      simp only [Fits, hb, List.length_cons, List.length_nil]
      omega
    rw [queueEvent_eq, hf]
    refine ⟨fun h1 => ?_, fun h1 => ⟨s, if_neg h1, SameMarks.refl s⟩⟩
    rw [if_pos h1, St.push, hb]
    rfl
  cases n with
  | output p d => exact queueChunks_eq p _ s h
  | refresh => exact single .refresh rfl
  | exit => exact single .exit rfl
  | nothing =>
    refine ⟨fun _ => ?_, fun hn => (hn h).elim⟩
    simp [queueNotice, Notice.events, St.push, outputBytes]

/-! ## Markers -/

theorem parseMarker_none {line head : Bytes} (h : stripHead head line = none) : parseMarker line head = .ok none := by
  unfold parseMarker
  rw [h]

theorem startsWith_eq_false {line head : Bytes} : startsWith line head = false ↔ stripHead head line = none := by
  simp [startsWith]

/-- a line with the head is a marker or an error -/
theorem parseMarker_ne_none {line head : Bytes} (h : startsWith line head = true) : parseMarker line head ≠ .ok none := by
  intro hn
  unfold parseMarker at hn
  cases hs : stripHead head line with
  | none => simp [startsWith, hs] at h
  | some v =>
    rw [hs] at hn
    obtain ⟨t, -, hn⟩ := parsed_bind.1 hn
    split at hn
    · obtain ⟨a, -, hn⟩ := parsed_bind.1 hn
      obtain ⟨b, -, hn⟩ := parsed_bind.1 hn
      obtain ⟨c, -, hn⟩ := parsed_bind.1 hn
      cases hn
    · cases hn

theorem ingestNotification_eq {line : Bytes} (hb : stripHead beginMark line = none) (s : St) :
    ingestNotification line s = (Io.lift (parseNotification line) >>= queueNotice) s := by
  rw [ingestNotification, bind_of_ok (modify_apply _ _), startsWith_eq_false.2 hb, Bool.or_false]

/-! ## One step of the reading loop -/

/-- what the loop does with the result of `observeLine` -/
def continueReading (max fuel : ℕ) : Res (Reading ⊕ List Bytes) × St → Res (List Bytes) × St
  | (.ok (.inl r), s) => readResponseFrom max fuel r s
  | (.ok (.inr rows), s) => (.ok rows, s)
  | (.error e, s) => (.error e, s)
  | (.waiting, s) => (.waiting, s)

theorem readResponseFrom_line {max fuel : ℕ} {r : Reading} {line : Bytes} {b : ResponseBudget}
    (hl : nextLine true s = (.ok line, s')) (hb : r.budget.observe line = .ok b) :
    readResponseFrom max (fuel + 1) r s = continueReading max fuel (observeLine max { r with budget := b } line s') := by
  rw [readResponseFrom, bind_of_ok hl, hb, bind_of_ok (lift_ok _ _), bind_apply]
  rcases observeLine max { r with budget := b } line s' with ⟨o, t⟩
  rcases o with (r' | rows) | e | _ <;> rfl

/-- before the opening record a line that is not one is a notification -/
theorem observeLine_note (max : ℕ) {r : Reading} (hm : r.marker = none) {line : Bytes} (hb : stripHead beginMark line = none)
    (s : St) : observeLine max r line s = (ingestNotification line >>= fun _ => pure (.inl r)) s := by
  simp only [observeLine, hm]
  rw [parseMarker_none hb, bind_of_ok (lift_ok _ _)]

theorem observeLine_opening (max : ℕ) {r : Reading} (hm : r.marker = none) {line : Bytes} {m : Marker}
    (hb : parseMarker line beginMark = .ok (some m)) (s : St) :
    observeLine max r line s = (.ok (.inl { r with marker := some m }), s) := by
  simp only [observeLine, hm]
  rw [hb, bind_of_ok (lift_ok _ _)]
  rfl

theorem observeLine_end (max : ℕ) {r : Reading} {m : Marker} (hm : r.marker = some m) {line : Bytes}
    (h : parseMarker line endMark = .ok (some m)) (s : St) : observeLine max r line s = (.ok (.inr r.result), s) := by
  simp only [observeLine, hm]
  rw [h, bind_of_ok (lift_ok _ _)]
  simp only [if_true, pure_apply]

/-- a row without a reserved head is payload, within the limit -/
theorem observeLine_row (max : ℕ) {r : Reading} {m : Marker} (hm : r.marker = some m) {line : Bytes}
    (h1 : stripHead endMark line = none) (h2 : stripHead errorMark line = none) (h3 : stripHead beginMark line = none)
    (s : St) : observeLine max r line s =
      if max < r.size + (stripNewline line).length then (.error .projectionTooLarge, s)
      else (.ok (.inl { r with
        size := r.size + (stripNewline line).length, result := r.result ++ [stripNewline line] }), s) := by
  simp only [observeLine, hm]
  rw [parseMarker_none h1, bind_of_ok (lift_ok _ _)]
  dsimp only
  rw [parseMarker_none h2, bind_of_ok (lift_ok _ _)]
  simp only [startsWith_eq_false.2 h3, Bool.false_eq_true, if_false]
  split_ifs <;> rfl

end OwlMux.Tmux
