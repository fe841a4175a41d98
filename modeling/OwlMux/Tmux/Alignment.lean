/-
Alignment of commands and responses over the whole life of a control adapter.

Between operations nothing is due: no block is being written and no command is unanswered (`Idle`). A read that returns
a response, or the target's refusal, has read the block of its own command to the end; every other outcome of a read is
one after which the callers use the adapter for nothing else. So an operation keeps `Idle` unless it ends in a stop
(`Keeps`), and the workspace never sends a command over an unread block.

Results:
- `readResponse_spec`: the response is the answer to the caller's command, read to the end;
- `keeps_hydrate`, `keeps_mutatingCommand`: the operations, with the outcomes that leave a block unread;
- `command_alignment`: over every run of the workspace no command is sent while a block is unread, no response goes to the
  wrong caller, and no `%begin` record is taken as a notification.
-/
import Mathlib.Tactic
import OwlMux.Tmux.Reader
import OwlMux.Tmux.Hydrate

namespace OwlMux.Tmux

open OwlMux.Relay (Text byteLen)

variable {α β : Type} {s s' : St}

/-! ## Fatal parse errors -/

/-- every error of the parse is one no caller goes on after -/
def OnlyFatal (x : Parsed α) : Prop := ∀ e, x = .error e → e.fatal = true

theorem OnlyFatal.bind {x : Parsed α} {f : α → Parsed β} (hx : OnlyFatal x) (hf : ∀ a, OnlyFatal (f a)) :
    OnlyFatal (x >>= f) := by
  intro e h
  cases x with
  | error e' =>
    cases h
    exact hx _ rfl
  | ok a => exact hf a e h

theorem onlyFatal_ok (a : α) : OnlyFatal (.ok a : Parsed α) := by
  intro e h
  cases h

theorem onlyFatal_orError {e : TmuxError} (he : e.fatal = true) (o : Option α) : OnlyFatal (orError e o) := by
  intro e' h
  cases o with
  | none => cases h; exact he
  | some a => cases h

theorem onlyFatal_require {e : TmuxError} (he : e.fatal = true) (b : Bool) : OnlyFatal (require b e) := by
  intro e' h
  cases b with
  | false => cases h; exact he
  | true => cases h

theorem onlyFatal_protocol : OnlyFatal (.error .protocol : Parsed α) := by
  intro e h
  cases h
  rfl

theorem onlyFatal_parseMarker (line head : Bytes) : OnlyFatal (parseMarker line head) := by
  unfold parseMarker
  cases stripHead head line with
  | none => exact onlyFatal_ok _
  | some v =>
    refine (onlyFatal_orError rfl _).bind fun t => ?_
    split
    · exact (onlyFatal_orError rfl _).bind fun a => (onlyFatal_orError rfl _).bind fun b =>
        (onlyFatal_orError rfl _).bind fun c => onlyFatal_ok _
    · exact onlyFatal_protocol

theorem onlyFatal_outputNotice (p d : Bytes) : OnlyFatal (outputNotice p d) := by
  refine (onlyFatal_orError rfl _).bind fun t => (onlyFatal_require rfl _).bind fun _ => OnlyFatal.bind ?_ fun d => onlyFatal_ok _
  unfold decoded
  split
  · exact onlyFatal_ok _
  · exact onlyFatal_protocol

theorem onlyFatal_parseNotification (line : Bytes) : OnlyFatal (parseNotification line) := by
  have pane : ∀ (p : Bytes) (n : Notice), OnlyFatal (do
      let pane ← orError TmuxError.protocol (fromUtf8 p)
      require (isPaneId pane) TmuxError.protocol
      return n : Parsed Notice) := fun p n =>
    (onlyFatal_orError rfl _).bind fun _ => (onlyFatal_require rfl _).bind fun _ => onlyFatal_ok _
  unfold parseNotification
  dsimp only
  split
  · exact (onlyFatal_orError rfl _).bind fun p => onlyFatal_outputNotice _ _
  · split
    · exact (onlyFatal_orError rfl _).bind fun p => (onlyFatal_orError rfl _).bind fun q =>
        (onlyFatal_require rfl _).bind fun _ => onlyFatal_outputNotice _ _
    · split
      · exact onlyFatal_ok _
      · split
        · exact pane _ _
        · split
          · exact pane _ _
          · split
            · exact onlyFatal_ok _
            · split
              · exact onlyFatal_ok _
              · exact onlyFatal_protocol

/-! ## Notifications and lines -/

/-- the operation changes at most the queue, and its errors are fatal -/
def Quiet (x : Io α) : Prop :=
  ∀ s, (∀ e, (x s).1 = .error e → e.fatal = true) ∧ ∃ es n, (x s).2 = { s with events := es, queuedOutputBytes := n }

theorem Quiet.bind {x : Io α} {f : α → Io β} (hx : Quiet x) (hf : ∀ a, Quiet (f a)) : Quiet (x >>= f) := by
  intro s
  obtain ⟨h1, es, n, h2⟩ := hx s
  rw [bind_apply]
  rcases hxs : x s with ⟨o, t⟩
  rw [hxs] at h1 h2
  cases o with
  | ok a =>
    obtain ⟨k1, es', n', k2⟩ := hf a t
    refine ⟨k1, es', n', ?_⟩
    show (f a t).2 = _
    rw [k2, show t = _ from h2]
  | error e =>
    dsimp only
    exact ⟨fun e' he => h1 e' (by cases he; rfl), es, n, h2⟩
  | waiting =>
    dsimp only
    exact ⟨by simp, es, n, h2⟩

theorem quiet_queueEvent (e : ControlEvent) : Quiet (queueEvent e) := by
  intro s
  unfold queueEvent
  split_ifs
  · exact ⟨by rintro e ⟨⟩; rfl, s.events, s.queuedOutputBytes, rfl⟩
  · exact ⟨by simp, _, s.queuedOutputBytes, rfl⟩

theorem quiet_chargeOutput (n : ℕ) : Quiet (chargeOutput n) := by
  intro s
  simp only [chargeOutput]
  split_ifs
  · exact ⟨by rintro e ⟨⟩; rfl, s.events, _, rfl⟩
  · exact ⟨by simp, s.events, _, rfl⟩

theorem quiet_pure (a : α) : Quiet (Io.pure a) := fun s => ⟨by simp, s.events, s.queuedOutputBytes, rfl⟩

theorem quiet_queueChunks (p : Text) (cs : List Bytes) : Quiet (queueChunks p cs) := by
  induction cs with
  | nil => exact quiet_pure ()
  | cons c cs ih => exact (quiet_chargeOutput _).bind fun _ => (quiet_queueEvent _).bind fun _ => ih

theorem quiet_queueNotice (n : Notice) : Quiet (queueNotice n) := by
  cases n with
  | output p d => exact quiet_queueChunks p _
  | refresh => exact quiet_queueEvent _
  | exit => exact quiet_queueEvent _
  | nothing => exact quiet_pure ()

theorem quiet_lift {x : Parsed α} (h : OnlyFatal x) : Quiet (Io.lift x) := by
  intro s
  cases x with
  | ok a => exact ⟨by simp, s.events, s.queuedOutputBytes, rfl⟩
  | error e => exact ⟨fun e' he => by cases he; exact h e rfl, s.events, s.queuedOutputBytes, rfl⟩

/-- a line that opens no block is no stray record -/
theorem ingest_quiet {line : Bytes} (hb : stripHead beginMark line = none) (s : St) :
    (∀ e, (ingestNotification line s).1 = .error e → e.fatal = true) ∧
      ∃ es n, (ingestNotification line s).2 = { s with events := es, queuedOutputBytes := n } := by
  rw [ingestNotification_eq hb]
  exact (quiet_lift (onlyFatal_parseNotification line)).bind (fun n => quiet_queueNotice n) s

/-! ## Responses -/

/-- where a reader stands in the block of `c`: before it, or behind some of its rows -/
inductive Phase (c : Command) (cs : List Command) (lines : List (List Command)) (r : Reading) (s : St) : Prop
  | before (hm : r.marker = none) (hr : r.result = []) (hw : s.wire = []) (hp : s.pending = (c :: cs) :: lines)
  | inside (a : Answer) (done todo : List Bytes) (hm : r.marker = some a.marker) (ha : a.rows = done ++ todo)
      (hr : r.result = done.map stripNewline) (hw : s.wire = a.wire c todo) (hp : s.pending = a.leaves cs lines)

/-- what a read of the response to `c` leaves -/
inductive Read (c : Command) (cs : List Command) (lines : List (List Command)) : Res (List Bytes) × St → Prop
  | answered {rows : List Bytes} {t : St} (hw : t.wire = []) (hp : t.pending = if cs.isEmpty then lines else cs :: lines)
      (hl : t.log.getLast? = some (.closed c rows true)) : Read c cs lines (.ok rows, t)
  | refused {rows : List Bytes} {t : St} (hw : t.wire = []) (hp : t.pending = lines)
      (hl : t.log.getLast? = some (.closed c rows false)) : Read c cs lines (.error .target, t)
  | stopped {r : Res (List Bytes)} {t : St} (hr : r.stopped = true) : Read c cs lines (r, t)

/-- one line inside a block: a row, the end, the refusal, or an error -/
theorem observeLine_inside (max : ℕ) {r : Reading} {a : Answer} (hm : r.marker = some a.marker) {line : Bytes}
    (hopen : ¬ Closes a.marker line) (s : St) :
    (∃ e, e.fatal = true ∧ observeLine max r line s = (.error e, s)) ∨
      ∃ size, observeLine max r line s =
        (.ok (.inl { r with size := size, result := r.result ++ [stripNewline line] }), s) := by
  simp only [observeLine, hm]
  cases he : parseMarker line endMark with
  | error e => exact Or.inl ⟨e, onlyFatal_parseMarker _ _ e he, bind_of_error (lift_error _ _) _⟩
  | ok o =>
    rw [bind_of_ok (lift_ok _ _)]
    cases o with
    | some e =>
      have hne : a.marker ≠ e := by
        rintro rfl
        exact hopen (Or.inl he)
      exact Or.inl ⟨.protocol, rfl, by simp only [if_neg hne, fail_apply]⟩
    | none =>
      dsimp only
      cases hf : parseMarker line errorMark with
      | error e => exact Or.inl ⟨e, onlyFatal_parseMarker _ _ e hf, bind_of_error (lift_error _ _) _⟩
      | ok o =>
        rw [bind_of_ok (lift_ok _ _)]
        cases o with
        | some e =>
          have hne : a.marker ≠ e := by
            rintro rfl
            exact hopen (Or.inr hf)
          exact Or.inl ⟨.protocol, rfl, by simp only [if_neg hne, fail_apply]⟩
        | none =>
          dsimp only
          split
          · exact Or.inl ⟨.protocol, rfl, rfl⟩
          · split
            · exact Or.inl ⟨.projectionTooLarge, rfl, rfl⟩
            · exact Or.inr ⟨_, rfl⟩

theorem eq_append_of_stripHead {head line rest : Bytes} (h : stripHead head line = some rest) : line = head ++ rest := by
  induction head generalizing line with
  | nil => simpa [stripHead] using h
  | cons p ps ih =>
    cases line with
    | nil => cases h
    | cons b v =>
      simp only [stripHead] at h
      split_ifs at h with hb
      rw [hb, ih h]
      rfl

/-- a record of a refusal is not one of an end -/
theorem parseMarker_end_of_error {line : Bytes} {m : Marker} (h : parseMarker line errorMark = .ok (some m)) :
    parseMarker line endMark = .ok none := by
  cases hs : stripHead errorMark line with
  | none =>
    rw [parseMarker_none hs] at h
    cases h
  | some rest =>
    have hline := eq_append_of_stripHead hs
    have hm : errorMark = [37, 101, 114, 114, 111, 114, 32] := by decide +kernel
    have he : endMark = [37, 101, 110, 100, 32] := by decide +kernel
    refine parseMarker_none ?_
    rw [hline, hm, he]
    simp [stripHead]

/-- the closing record of a refusal -/
theorem observeLine_refusal {max : ℕ} {r : Reading} {a : Answer} (hm : r.marker = some a.marker) (hok : a.ok = false) (s : St) :
    observeLine max r a.closing s = (.error .target, s) := by
  have hc : parseMarker a.closing errorMark = .ok (some a.marker) := by
    have := a.closes
    rwa [hok, if_neg (by simp)] at this
  simp only [observeLine, hm]
  rw [parseMarker_end_of_error hc, bind_of_ok (lift_ok _ _)]
  dsimp only
  rw [hc, bind_of_ok (lift_ok _ _)]
  simp only [if_true, fail_apply]

theorem observe_fatal {b : ResponseBudget} {line : Bytes} : OnlyFatal (b.observe line) :=
  (onlyFatal_require rfl _).bind fun _ => onlyFatal_ok _

/-- **The reading loop.** From the phase of `c`, a response is the answer to `c` and its block has been read to the end. -/
theorem readResponseFrom_spec {c : Command} {cs : List Command} {lines : List (List Command)} (max fuel : ℕ) (r : Reading)
    (s : St) (h : Phase c cs lines r s) :
    Read c cs lines (readResponseFrom max fuel r s) ∧ SameMarks s (readResponseFrom max fuel r s).2 := by
  induction fuel generalizing r s with
  | zero => exact ⟨.stopped rfl, ⟨rfl, rfl, rfl⟩⟩
  | succ fuel ih =>
    have hn := nextLine_cases true s
    rcases hl : nextLine true s with ⟨o, s₁⟩
    rw [hl] at hn
    -- a line within the budget goes to `observeLine`
    have goOn : ∀ line, o = .ok line → SameMarks s s₁ →
        (∀ b, Read c cs lines (continueReading max fuel (observeLine max { r with budget := b } line s₁)) ∧
          SameMarks s₁ (continueReading max fuel (observeLine max { r with budget := b } line s₁)).2) →
        Read c cs lines (readResponseFrom max (fuel + 1) r s) ∧ SameMarks s (readResponseFrom max (fuel + 1) r s).2 := by
      rintro line rfl hm hobs
      cases hb : r.budget.observe line with
      | error e =>
        rw [readResponseFrom, bind_of_ok hl, hb, bind_of_error (lift_error _ _)]
        exact ⟨.stopped (observe_fatal e hb), hm⟩
      | ok b =>
        rw [readResponseFrom_line hl hb]
        exact ⟨(hobs b).1, hm.trans (hobs b).2⟩
    cases hn with
    | stop hr hm =>
      cases o with
      | ok line => cases hr
      | error e =>
        rw [readResponseFrom, bind_of_error hl]
        exact ⟨.stopped hr, hm⟩
      | waiting =>
        rw [readResponseFrom, bind_of_waiting hl]
        exact ⟨.stopped hr, hm⟩
    | note n ms hw =>
      cases h with
      | inside a done todo _ _ _ hw' => simp [hw, Answer.wire] at hw'
      | before hm hr _ hp =>
        refine goOn _ rfl ⟨rfl, rfl, rfl⟩ fun b => ?_
        rw [observeLine_note max (by exact hm) n.plain]
        obtain ⟨hfatal, es, q, hq⟩ := ingest_quiet n.plain { s with script := ms, log := s.log ++ [.note n.line] }
        rcases hi : ingestNotification n.line { s with script := ms, log := s.log ++ [.note n.line] } with ⟨o, t⟩
        rw [hi] at hfatal hq
        have ht : SameMarks { s with script := ms, log := s.log ++ [.note n.line] } t := by
          rw [show t = _ from hq]
          exact ⟨rfl, rfl, rfl⟩
        cases o with
        | ok u =>
          rw [bind_of_ok hi]
          have hphase : Phase c cs lines { r with budget := b } t := by
            rw [show t = _ from hq]
            exact .before hm hr hw hp
          obtain ⟨i1, i2⟩ := ih _ _ hphase
          exact ⟨i1, ht.trans i2⟩
        | error e =>
          rw [bind_of_error hi]
          exact ⟨.stopped (hfatal e rfl), ht⟩
        | waiting =>
          rw [bind_of_waiting hi]
          exact ⟨.stopped rfl, ht⟩
    | opening a ms c' cs' lines' hw hp' =>
      cases h with
      | inside a done todo _ _ _ hw' => simp [hw, Answer.wire] at hw'
      | before hm hr _ hp =>
        rw [hp] at hp'
        obtain ⟨⟨rfl, rfl⟩, rfl⟩ : (c = c' ∧ cs = cs') ∧ lines = lines' := by simpa using hp'
        refine goOn _ rfl ⟨rfl, rfl, rfl⟩ fun b => ?_
        rw [observeLine_opening max (by exact hm) a.opens]
        obtain ⟨i1, i2⟩ := ih { r with budget := b, marker := some a.marker } _
          (.inside (s := { s with script := ms, wire := a.wire c a.rows, pending := a.leaves cs lines }) a [] a.rows rfl rfl
            hr rfl rfl)
        exact ⟨i1, i2⟩
    | row l w ms hw =>
      cases h with
      | before _ _ hw' => simp [hw] at hw'
      | inside a done todo hm ha hr hw' hp =>
        rw [hw] at hw'
        refine goOn _ rfl ⟨rfl, rfl, rfl⟩ fun b => ?_
        cases todo with
        | nil =>
          -- the closing record
          obtain ⟨rfl, rfl⟩ : l = ⟨a.closing, some (c, a.rows.map stripNewline, a.ok)⟩ ∧ w = [] := by
            simpa [Answer.wire] using hw'
          cases hok : a.ok with
          | true =>
            have hend : parseMarker a.closing endMark = .ok (some a.marker) := by
              have := a.closes
              rwa [hok, if_pos rfl] at this
            rw [observeLine_end max (by exact hm) hend]
            refine ⟨.answered rfl ?_ ?_, SameMarks.refl _⟩
            · show s.pending = _
              rw [hp, Answer.leaves, hok]
              cases cs <;> rfl
            · show (s.log ++ _).getLast? = _
              rw [ha, List.append_nil] at *
              simp [hr]
          | false =>
            rw [observeLine_refusal (by exact hm) hok]
            have hp' : s.pending = lines := by
              rw [hp, Answer.leaves, hok]
              rfl
            have hl' : (s.log ++ [Entry.closed c (a.rows.map stripNewline) false]).getLast? =
                some (.closed c (a.rows.map stripNewline) false) := by simp
            exact ⟨.refused rfl hp' hl', SameMarks.refl _⟩
        | cons row todo =>
          obtain ⟨rfl, rfl⟩ : l = ⟨row, none⟩ ∧ w = a.wire c todo := by simpa [Answer.wire] using hw'
          have hopen : ¬ Closes a.marker row := a.rowsOpen row (by rw [ha]; simp)
          rcases observeLine_inside max (r := { r with budget := b }) (a := a) (by exact hm) hopen
              { s with wire := a.wire c todo, script := ms, log := s.log ++ [] } with ⟨e, he, hobs⟩ | ⟨size, hobs⟩
          · simp only [Option.toList, List.map_nil]
            rw [hobs]
            exact ⟨.stopped he, SameMarks.refl _⟩
          · simp only [Option.toList, List.map_nil]
            rw [hobs]
            exact ih _ _ (.inside a (done ++ [row]) todo hm (by simp [ha]) (by simp [hr]) rfl hp)

/-! ## Operations -/

/-- no block is being written and no command is unanswered -/
def Idle (s : St) : Prop := s.wire = [] ∧ s.pending = []

/-- nothing has gone wrong so far -/
structure Clean (s : St) : Prop where
  unread : s.unread = false
  stray : s.stray = false
  crossed : s.crossed = false

theorem Clean.of_same (h : Clean s) (k : SameMarks s s') : Clean s' :=
  ⟨k.unread.trans h.unread, k.stray.trans h.stray, k.crossed.trans h.crossed⟩

/-- **`read_response_with_limit`.** The response returned is the answer to the caller's command. -/
theorem readResponse_spec {c : Command} {cs : List Command} {lines : List (List Command)} (max : ℕ) (hw : s.wire = [])
    (hp : s.pending = (c :: cs) :: lines) (hc : Clean s) :
    Read c cs lines (readResponse c max s) ∧ Clean (readResponse c max s).2 := by
  obtain ⟨h1, h2⟩ := readResponseFrom_spec max (maxResponseRecords + 1) .init s (.before rfl rfl hw hp)
  unfold readResponse
  dsimp only
  generalize readResponseFrom max (maxResponseRecords + 1) .init s = x at h1 h2
  obtain ⟨r, t⟩ := x
  have hclean : Clean t := hc.of_same h2
  cases h1 with
  | answered hw hp hl =>
    refine ⟨.answered hw hp hl, ⟨hclean.unread, hclean.stray, ?_⟩⟩
    show (t.crossed || _) = false
    simp [hclean.crossed, isAnswerTo, hl]
  | refused hw hp hl =>
    refine ⟨.refused hw hp hl, ⟨hclean.unread, hclean.stray, ?_⟩⟩
    show (t.crossed || _) = false
    simp [hclean.crossed, isAnswerTo, hl]
  | stopped hr =>
    refine ⟨.stopped hr, ⟨hclean.unread, hclean.stray, ?_⟩⟩
    show (t.crossed || _) = false
    cases r with
    | ok rows => cases hr
    | waiting => simp [hclean.crossed, isAnswerTo]
    | error e => cases e <;> simp_all [hclean.crossed, isAnswerTo, Res.stopped, TmuxError.fatal]

/-- what the caller goes on after: an error other than a stop, or a result that is good -/
def GoesOn (good : α → Prop) : Res α → Prop
  | .ok a => good a
  | .error e => e.fatal = false
  | .waiting => False

/-- from an idle adapter the operation stays clean, and leaves it idle where the caller goes on -/
def Keeps (good : α → Prop) (x : Io α) : Prop :=
  ∀ s, Idle s → Clean s → Clean (x s).2 ∧ (GoesOn good (x s).1 → Idle (x s).2)

/-- every result is one the caller goes on after -/
def always : α → Prop := fun _ => True

/-- the rest of an operation whose caller stops: it touches the adapter no more and reports nothing good -/
def Ends (good : α → Prop) (x : Io α) : Prop := ∀ s, (x s).2 = s ∧ ¬ GoesOn good (x s).1

/-- sequencing: the second part runs where the first has left the adapter idle, or ends -/
theorem Keeps.bind {g : α → Prop} {h : β → Prop} {x : Io α} {f : α → Io β} (hx : Keeps g x) (hf : ∀ a, g a → Keeps h (f a))
    (he : ∀ a, ¬ g a → Ends h (f a)) : Keeps h (x >>= f) := by
  intro s hi hc
  obtain ⟨h1, h2⟩ := hx s hi hc
  rw [bind_apply]
  rcases hxs : x s with ⟨o, t⟩
  rw [hxs] at h1 h2
  cases o with
  | ok a =>
    by_cases hg : g a
    · exact hf a hg t (h2 hg) h1
    · obtain ⟨k1, k2⟩ := he a hg t
      dsimp only
      rw [k1]
      exact ⟨h1, fun h => (k2 h).elim⟩
  | error e => exact ⟨h1, h2⟩
  | waiting => exact ⟨h1, fun h => h.elim⟩

theorem Keeps.seq {h : β → Prop} {x : Io α} {f : α → Io β} (hx : Keeps always x) (hf : ∀ a, Keeps h (f a)) :
    Keeps h (x >>= f) := hx.bind (fun a _ => hf a) fun _ ha => (ha trivial).elim

theorem keeps_pure {g : α → Prop} (a : α) : Keeps g (Io.pure a) := fun _ hi hc => ⟨hc, fun _ => hi⟩

theorem keeps_lift {g : α → Prop} (x : Parsed α) : Keeps g (Io.lift x) := by
  cases x with
  | ok a => exact fun _ hi hc => ⟨hc, fun _ => hi⟩
  | error e => exact fun _ hi hc => ⟨hc, fun _ => hi⟩

/-- an operation on the queue alone -/
theorem keeps_queue {g : α → Prop} {x : Io α}
    (h : ∀ s, ∃ es n log, (x s).2 = { s with events := es, queuedOutputBytes := n, log := log }) : Keeps g x := by
  intro s hi hc
  obtain ⟨es, n, log, hx⟩ := h s
  rw [hx]
  exact ⟨⟨hc.unread, hc.stray, hc.crossed⟩, fun _ => hi⟩

/-- `send_command` from an idle adapter: the line is due, or nothing was sent and the caller stops -/
theorem sendCommand_spec (cs : List Command) (hi : Idle s) (hc : Clean s) :
    Clean (sendCommand cs s).2 ∧
      (((sendCommand cs s).1 = .ok () ∧ (sendCommand cs s).2.wire = [] ∧ (sendCommand cs s).2.pending = [cs]) ∨
        ∃ e, (sendCommand cs s).1 = .error e ∧ e.fatal = true) := by
  have hun : (s.unread || !s.wire.isEmpty || !s.pending.isEmpty) = false := by simp [hc.unread, hi.1, hi.2]
  unfold sendCommand
  simp only [hun]
  split
  · exact ⟨⟨rfl, hc.stray, hc.crossed⟩, Or.inr ⟨_, rfl, rfl⟩⟩
  · split_ifs
    · exact ⟨⟨rfl, hc.stray, hc.crossed⟩, Or.inr ⟨_, rfl, rfl⟩⟩
    · exact ⟨⟨rfl, hc.stray, hc.crossed⟩, Or.inl ⟨rfl, hi.1, by simp [hi.2]⟩⟩

theorem Read.idle {c : Command} {x : Res (List Bytes) × St} (h : Read c [] [] x) (hg : GoesOn always x.1) : Idle x.2 := by
  cases h with
  | answered hw hp => exact ⟨hw, hp⟩
  | refused hw hp => exact ⟨hw, hp⟩
  | @stopped r t hr =>
    cases r with
    | ok rows => cases hr
    | error e => exact absurd hg (by simpa [GoesOn, Res.stopped] using hr)
    | waiting => exact hg.elim

theorem keeps_command (c : Command) (max : ℕ) : Keeps always (command c max) := by
  intro s hi hc
  obtain ⟨h1, h2⟩ := sendCommand_spec [c] hi hc
  unfold command
  rw [bind_apply]
  rcases hs : sendCommand [c] s with ⟨o, t⟩
  rw [hs] at h1 h2
  rcases h2 with ⟨ho, hw, hp⟩ | ⟨e, ho, he⟩
  · obtain rfl : o = .ok () := ho
    obtain ⟨k1, k2⟩ := readResponse_spec max hw hp h1
    exact ⟨k2, k1.idle⟩
  · obtain rfl : o = .error e := ho
    exact ⟨h1, fun hg => absurd hg (by simp [GoesOn, he])⟩

/-- **`mutating_command`.** Only an ambiguous outcome can leave a block unread. -/
theorem keeps_mutatingCommand (c : Command) : Keeps (· ≠ MutationOutcome.ambiguous) (mutatingCommand c) := by
  intro s hi hc
  obtain ⟨h1, h2⟩ := sendCommand_spec [c] hi hc
  unfold mutatingCommand
  rcases hs : sendCommand [c] s with ⟨o, t⟩
  rw [hs] at h1 h2
  rcases h2 with ⟨ho, hw, hp⟩ | ⟨e, ho, he⟩
  · obtain rfl : o = .ok () := ho
    obtain ⟨k1, k2⟩ := readResponse_spec maxResponseBytes hw hp h1
    dsimp only
    generalize readResponse c maxResponseBytes t = x at k1 k2
    cases k1 with
    | answered hw hp => exact ⟨k2, fun _ => ⟨hw, hp⟩⟩
    | refused hw hp => exact ⟨k2, fun _ => ⟨hw, hp⟩⟩
    | @stopped r t hr =>
      cases r with
      | ok rows => cases hr
      | waiting => exact ⟨k2, fun h => h.elim⟩
      | error e =>
        cases e with
        | target => cases hr
        | _ => exact ⟨k2, fun h => absurd rfl h⟩
  · obtain rfl : o = .error e := ho
    exact ⟨h1, fun h => absurd rfl h⟩

/-- what follows a response runs from an idle adapter, when the response was the only one due -/
theorem keeps_read {h : β → Prop} {c : Command} (max : ℕ) {f : List Bytes → Io β} (hf : ∀ rows, Keeps h (f rows))
    (hw : s.wire = []) (hp : s.pending = [[c]]) (hc : Clean s) :
    Clean ((readResponse c max >>= f) s).2 ∧
      (GoesOn h ((readResponse c max >>= f) s).1 → Idle ((readResponse c max >>= f) s).2) := by
  obtain ⟨k1, k2⟩ := readResponse_spec max hw hp hc
  rw [bind_apply]
  generalize readResponse c max s = x at k1 k2
  cases k1 with
  | answered hw hp => exact hf _ _ ⟨hw, hp⟩ k2
  | refused hw hp => exact ⟨k2, fun _ => ⟨hw, hp⟩⟩
  | @stopped r t hr =>
    cases r with
    | ok rows => cases hr
    | error e => exact ⟨k2, fun hg => absurd hg (by simpa [GoesOn, Res.stopped] using hr)⟩
    | waiting => exact ⟨k2, fun hg => hg.elim⟩

theorem keeps_refuseOutputSince (p : Text) (n : ℕ) : Keeps always (refuseOutputSince p n) := by
  refine keeps_queue fun s => ⟨s.events, s.queuedOutputBytes, s.log, ?_⟩
  unfold refuseOutputSince
  split_ifs <;> rfl

/-- **The capture line.** Both blocks are read, or the first was refused and there is no second, or the caller stops. -/
theorem keeps_captureBarrier (p : Text) : Keeps always (captureBarrier p) := by
  intro s hi hc
  obtain ⟨h1, h2⟩ := sendCommand_spec [.capture p, .displayPane p] hi hc
  unfold captureBarrier
  rw [bind_apply]
  rcases hs : sendCommand [.capture p, .displayPane p] s with ⟨o, t⟩
  rw [hs] at h1 h2
  rcases h2 with ⟨ho, hw, hp⟩ | ⟨e, ho, he⟩
  · obtain rfl : o = .ok () := ho
    dsimp only
    rw [bind_apply]
    obtain ⟨k1, k2⟩ := readResponse_spec attachmentMaxPaneSnapshotBytes hw hp h1
    generalize readResponse (.capture p) attachmentMaxPaneSnapshotBytes t = x at k1 k2
    cases k1 with
    | @answered lines t hw hp =>
      dsimp only
      rw [bind_of_ok (show queuedEvents t = _ from rfl)]
      refine keeps_read _ (fun metadata => ?_) hw hp k2
      exact (keeps_refuseOutputSince _ _).seq fun _ => (keeps_lift _).seq fun _ => keeps_pure _
    | refused hw hp => exact ⟨k2, fun _ => ⟨hw, hp⟩⟩
    | @stopped r t hr =>
      cases r with
      | ok rows => cases hr
      | error e => exact ⟨k2, fun hg => absurd hg (by simpa [GoesOn, Res.stopped] using hr)⟩
      | waiting => exact ⟨k2, fun hg => hg.elim⟩
  · obtain rfl : o = .error e := ho
    exact ⟨h1, fun hg => absurd hg (by simp [GoesOn, he])⟩

/-! ## Hydration -/

theorem keeps_observeWindows (session : Text) : Keeps always (observeWindows session) :=
  (keeps_lift _).seq fun _ => (keeps_command _ _).seq fun _ => keeps_lift _

theorem keeps_observeWindow (session : Text) (created : ℤ) : Keeps always (observeWindow session created) :=
  (keeps_lift _).seq fun _ => (keeps_command _ _).seq fun _ => (keeps_lift _).seq fun _ =>
    (keeps_command _ _).seq fun _ => (keeps_lift _).seq fun _ => keeps_pure _

theorem keeps_observePanes (window : WindowProjection) : Keeps always (observePanes window) :=
  (keeps_command _ _).seq fun _ => keeps_lift _

theorem keeps_observePaneLabels (panes : List PaneProjection) : Keeps always (observePaneLabels panes) := by
  induction panes with
  | nil => exact keeps_pure _
  | cons pane panes ih =>
    exact (keeps_command _ _).seq fun _ => (keeps_lift _).seq fun _ => (keeps_command _ _).seq fun _ =>
      (keeps_lift _).seq fun _ => ih.seq fun _ => keeps_pure _

theorem keeps_forPanes (c : Text → Command) (panes : List PaneProjection) : Keeps always (forPanes c panes) := by
  induction panes with
  | nil => exact keeps_pure _
  | cons pane panes ih => exact (keeps_command _ _).seq fun _ => ih

theorem keeps_discard (p : Text) : Keeps always (discardCapturedOutput p) := keeps_queue fun s => ⟨_, _, s.log, rfl⟩

theorem keeps_capturePane (window : WindowProjection) (pane : PaneProjection) (total : ℕ) :
    Keeps always (capturePane window pane total) :=
  (keeps_captureBarrier _).seq fun _ => (keeps_lift _).seq fun _ => (keeps_lift _).seq fun _ => (keeps_lift _).seq fun _ =>
    (keeps_lift _).seq fun _ => (keeps_discard _).seq fun _ => keeps_pure _

theorem keeps_capturePanes (window : WindowProjection) (panes : List PaneProjection) (total : ℕ) :
    Keeps always (capturePanes window panes total) := by
  induction panes generalizing total with
  | nil => exact keeps_pure _
  | cons pane panes ih => exact (keeps_capturePane _ _ _).seq fun _ => (ih _).seq fun _ => keeps_pure _

theorem stableFrom_queue (changed : Bool) (es : List ControlEvent) (s : St) :
    ∃ es' n, (stableFrom changed es s).2 = { s with events := es', queuedOutputBytes := n } := by
  induction es generalizing changed s with
  | nil =>
    unfold stableFrom
    split_ifs <;> exact ⟨s.events, s.queuedOutputBytes, rfl⟩
  | cons e es ih =>
    cases e with
    | output p d =>
      obtain ⟨es', n, h⟩ := ih changed (s.popped (.output p d) es)
      exact ⟨es', n, h⟩
    | refresh =>
      obtain ⟨es', n, h⟩ := ih true (s.popped .refresh es)
      exact ⟨es', n, h⟩
    | exit => exact ⟨es, s.queuedOutputBytes - 0, rfl⟩

theorem keeps_stable : Keeps always requireStableCutover := keeps_queue fun s => by
  obtain ⟨es, n, h⟩ := stableFrom_queue false s.events s
  exact ⟨es, n, s.log, h⟩

theorem keeps_live : Keeps always requireLiveCutover := by
  refine keeps_queue fun s => ⟨s.events, s.queuedOutputBytes, s.log, ?_⟩
  unfold requireLiveCutover
  split_ifs <;> rfl

theorem keeps_revalidate (session : Text) (created : ℤ) (window : WindowProjection) (panes : List PaneProjection) :
    Keeps always (revalidateProjection session created window panes) :=
  (keeps_observeWindows _).seq fun _ => (keeps_observeWindow _ _).seq fun _ => (keeps_lift _).seq fun _ =>
    (keeps_observePanes _).seq fun _ => keeps_lift _

theorem keeps_hydrateOnce (session : Text) (created : ℤ) : Keeps always (hydrateOnce session created) :=
  (keeps_observeWindows _).seq fun _ => (keeps_observeWindow _ _).seq fun _ => (keeps_lift _).seq fun _ =>
    (keeps_observePanes _).seq fun _ => (keeps_observePaneLabels _).seq fun _ => (keeps_forPanes _ _).seq fun _ =>
    keeps_stable.seq fun _ => (keeps_forPanes _ _).seq fun _ => (keeps_capturePanes _ _ _).seq fun _ =>
    (keeps_revalidate _ _ _ _).seq fun _ => keeps_live.seq fun _ => keeps_pure _

theorem keeps_clearEvents : Keeps always clearEvents := keeps_queue fun s => ⟨_, _, s.log, rfl⟩

theorem keeps_beginAttempt : Keeps always beginAttempt :=
  keeps_clearEvents.seq fun _ => keeps_queue fun s => ⟨s.events, s.queuedOutputBytes, _, rfl⟩

theorem keeps_hydrateFrom (session : Text) (created : ℤ) (attempts : ℕ) :
    Keeps always (hydrateFrom session created attempts) := by
  induction attempts with
  | zero => exact keeps_lift (.error .changed)
  | succ attempts ih =>
    intro s hi hc
    obtain ⟨h1, h2⟩ := (keeps_beginAttempt.seq fun _ => keeps_hydrateOnce session created) s hi hc
    unfold hydrateFrom
    generalize (beginAttempt >>= fun _ => hydrateOnce session created) s = x at h1 h2
    obtain ⟨r, t⟩ := x
    cases r with
    | ok a => exact ⟨h1, h2⟩
    | waiting => exact ⟨h1, h2⟩
    | error e =>
      cases e with
      | changed => exact ih t (h2 rfl) h1
      | _ => exact ⟨h1, h2⟩

/-- **`hydrate`.** After any result a caller goes on with, no block is due. -/
theorem keeps_hydrate (session : Text) (created : ℤ) : Keeps always (hydrate session created) := keeps_hydrateFrom _ _ _

/-! ## Events -/

theorem keeps_pumpEvent : Keeps always pumpEvent := by
  intro s hi hc
  have hn := nextLine_cases false s
  unfold pumpEvent
  rw [bind_apply]
  generalize nextLine false s = x at hn
  cases hn with
  | @stop r s' hr hm =>
    cases r with
    | ok line => cases hr
    | error e => exact ⟨hc.of_same hm, fun hg => absurd hg (by simpa [GoesOn, Res.stopped] using hr)⟩
    | waiting => exact ⟨hc.of_same hm, fun hg => hg.elim⟩
  | note n ms hw =>
    obtain ⟨-, es, q, hq⟩ := ingest_quiet n.plain { s with script := ms, log := s.log ++ [.note n.line] }
    dsimp only
    rw [hq]
    exact ⟨⟨hc.unread, hc.stray, hc.crossed⟩, fun _ => hi⟩
  | opening a ms c cs lines hw hp =>
    rw [hi.2] at hp
    cases hp
  | row l w ms hw =>
    rw [hi.1] at hw
    cases hw

theorem keeps_pump (n : ℕ) : Keeps always (pump n) := by
  induction n with
  | zero => exact keeps_pure _
  | succ n ih => exact keeps_pumpEvent.seq fun _ => ih

theorem keeps_nextEventFrom (fuel : ℕ) : Keeps always (nextEventFrom fuel) := by
  induction fuel with
  | zero => exact fun s hi hc => ⟨hc, fun h => h.elim⟩
  | succ fuel ih =>
    intro s hi hc
    unfold nextEventFrom
    split
    · exact ⟨⟨hc.unread, hc.stray, hc.crossed⟩, fun _ => hi⟩
    · exact (keeps_pumpEvent.seq fun _ => ih) s hi hc

theorem keeps_nextEvent : Keeps always nextEvent := fun s => keeps_nextEventFrom _ s

/-! ## The workspace -/

theorem ends_pure {g : α → Prop} {a : α} (h : ¬ g a) : Ends g (Io.pure a) := fun _ => ⟨rfl, h⟩

/-- a mutation: only an ambiguous outcome may leave a block unread -/
abbrev sure (o : MutationOutcome) : Prop := o ≠ .ambiguous

theorem keeps_setWriter (writer : Bool) : Keeps sure (setWriter writer) := by
  refine (keeps_mutatingCommand _).bind (fun o _ => ?_) fun o ho => ?_
  · split
    · exact keeps_pure _
    · exact keeps_mutatingCommand _
  · obtain rfl := not_not.1 ho
    exact ends_pure (fun h => h rfl)

theorem keeps_resize (columns rows : ℕ) : Keeps sure (resize columns rows) :=
  (keeps_lift _).seq fun _ => keeps_mutatingCommand _

theorem keeps_install (session : Text) (created : ℤ) (pumps : ℕ) : Keeps (· = true) (install session created pumps) := by
  intro s hi hc
  obtain ⟨h1, h2⟩ := keeps_hydrate session created s hi hc
  unfold install
  generalize hydrate session created s = x at h1 h2
  obtain ⟨r, t⟩ := x
  cases r with
  | ok p => exact ((keeps_pump pumps).seq fun _ => keeps_pure true) t (h2 trivial) h1
  | waiting => exact ⟨h1, fun h => h.elim⟩
  | error e =>
    dsimp only
    split_ifs with he
    · exact ⟨h1, fun h => by cases h⟩
    · exact ⟨h1, h2⟩

theorem keeps_mutateAndRefresh {m : Io MutationOutcome} (hm : Keeps sure m) (session : Text) (created : ℤ) (pumps : ℕ) :
    Keeps (· = true) (mutateAndRefresh m session created pumps) := by
  refine hm.bind (fun o ho => ?_) fun o ho => ?_
  · cases o with
    | succeeded => exact keeps_install _ _ _
    | failed => exact keeps_pure true
    | ambiguous => exact (ho rfl).elim
  · obtain rfl := not_not.1 ho
    exact ends_pure (by simp)

/-- what follows a mutation that must succeed -/
theorem keeps_afterSuccess {m : Io MutationOutcome} (hm : Keeps sure m) {x : Io Bool} (hx : Keeps (· = true) x) :
    Keeps (· = true) (m >>= fun o => if o ≠ .succeeded then pure false else x) := by
  refine hm.bind (fun o _ => ?_) fun o ho => ?_
  · split
    · exact keeps_pure false
    · exact hx
  · obtain rfl := not_not.1 ho
    exact ends_pure (by simp)

/-- **One request.** -/
theorem keeps_serve (session : Text) (created : ℤ) (r : Request) : Keeps (· = true) (serve session created r) := by
  cases r with
  | demote =>
    refine (keeps_setWriter false).bind (fun o _ => keeps_pure _) fun o ho => ?_
    obtain rfl := not_not.1 ho
    exact ends_pure (by simp)
  | event => exact keeps_nextEvent.seq fun e => keeps_pure _
  | listen pumps => exact (keeps_pump pumps).seq fun _ => keeps_pure true
  | refresh pumps => exact keeps_install _ _ _
  | input p d =>
    have hm : Keeps sure (sendLiteral p d) := (keeps_lift _).seq fun _ => keeps_mutatingCommand _
    refine hm.bind (fun o _ => keeps_pure _) fun o ho => ?_
    obtain rfl := not_not.1 ho
    exact ends_pure (by simp)
  | resize size pumps => exact keeps_mutateAndRefresh (keeps_resize _ _) _ _ _
  | selectWindow w pumps => exact keeps_mutateAndRefresh ((keeps_lift _).seq fun _ => keeps_mutatingCommand _) _ _ _
  | selectPane p pumps => exact keeps_mutateAndRefresh ((keeps_lift _).seq fun _ => keeps_mutatingCommand _) _ _ _
  | claim current size pumps =>
    have hrest := keeps_afterSuccess (keeps_resize size.columns size.rows) (keeps_install session created pumps)
    cases current with
    | true => exact keeps_afterSuccess (keeps_pure _) hrest
    | false => exact keeps_afterSuccess (keeps_setWriter true) hrest

theorem keeps_serveAll (session : Text) (created : ℤ) (rs : List Request) (s : St) (hi : Idle s) (hc : Clean s) :
    Clean (serveAll session created rs s).2 := by
  induction rs generalizing s with
  | nil => exact hc
  | cons r rs ih =>
    obtain ⟨h1, h2⟩ := keeps_serve session created r s hi hc
    unfold serveAll
    rw [bind_apply]
    generalize serve session created r s = x at h1 h2
    obtain ⟨o, t⟩ := x
    cases o with
    | ok b =>
      cases b with
      | true => exact ih t (h2 rfl) h1
      | false => exact h1
    | error e => exact h1
    | waiting => exact h1

theorem keeps_enter (session : Text) (created : ℤ) (writer : Option (Option ClientSize)) (pumps : ℕ) :
    Keeps (· = true) (enter session created writer pumps) := by
  cases writer with
  | none => exact keeps_install _ _ _
  | some size =>
    cases size with
    | none => exact keeps_afterSuccess (keeps_setWriter true) (keeps_afterSuccess (keeps_pure _) (keeps_install _ _ _))
    | some size =>
      exact keeps_afterSuccess (keeps_setWriter true) (keeps_afterSuccess (keeps_resize _ _) (keeps_install _ _ _))

/-- **Command-response alignment.** For every behaviour of the target, every failure of the transport and every list of
requests: no command is sent while a block of an earlier command is unread, every response returned is the answer to the
caller's command, and no `%begin` record is taken as a notification. -/
theorem command_alignment (session : Text) (created : ℤ) (writer : Option (Option ClientSize)) (pumps : ℕ)
    (rs : List Request) (script : List Move) :
    (workspace session created writer pumps rs (St.init script)).2.unread = false ∧
      (workspace session created writer pumps rs (St.init script)).2.crossed = false ∧
      (workspace session created writer pumps rs (St.init script)).2.stray = false := by
  have hrest : ∀ s, Idle s → Clean s → Clean ((enter session created writer pumps >>= fun b =>
      if b then serveAll session created rs else Io.pure ()) s).2 := by
    intro s hi hc
    obtain ⟨h1, h2⟩ := keeps_enter session created writer pumps s hi hc
    rw [bind_apply]
    generalize enter session created writer pumps s = x at h1 h2
    obtain ⟨o, t⟩ := x
    cases o with
    | ok b =>
      cases b with
      | true => exact keeps_serveAll session created rs t (h2 rfl) h1
      | false => exact h1
    | error e => exact h1
    | waiting => exact h1
  -- the attach block is the first response due
  have hstart : Clean (startAdapter (St.init script)).2 ∧
      (GoesOn always (startAdapter (St.init script)).1 → Idle (startAdapter (St.init script)).2) :=
    keeps_read _ (fun _ => (keeps_command _ _).seq fun _ => (keeps_command _ _).seq fun _ => keeps_clearEvents) rfl rfl
      ⟨rfl, rfl, rfl⟩
  have hclean : Clean (workspace session created writer pumps rs (St.init script)).2 := by
    unfold workspace
    rw [bind_apply]
    obtain ⟨h1, h2⟩ := hstart
    generalize startAdapter (St.init script) = x at h1 h2
    obtain ⟨o, t⟩ := x
    cases o with
    | ok u => exact hrest t (h2 trivial) h1
    | error e => exact h1
    | waiting => exact h1
  exact ⟨hclean.unread, hclean.crossed, hclean.stray⟩

end OwlMux.Tmux
