/-
The rows of a guarded block as opaque payload.

A stream is some notifications, then one block: its opening record, rows none of which is a closing record for its
marker, and `%end`, all within the budgets of the reader. The reader treats three heads specially inside a block, before
it takes a row as payload, and refuses a row that only looks like a record.

Results:
- `notes_run`, `rows_run`: the reader over the notifications, and over the rows of a block;
- `payload_meets`: the response is the rows and the queue gains the events of the notifications, if and only if the queue
  has room for them and no row begins with `%begin `, `%end ` or `%error `;
- `screen_row_refused`: a pane that shows the row `%end of file` makes the read fail.
-/
import Mathlib.Tactic
import OwlMux.Tmux.Reader

namespace OwlMux.Tmux

variable {s : St} (max fuel : ℕ) {ms : List Move}

/-! ## Budgets -/

/-- a row the reader does not take as payload -/
def reserved (row : Bytes) : Bool := startsWith row beginMark || startsWith row endMark || startsWith row errorMark

def wireLength (lines : List Bytes) : ℕ := (lines.map List.length).sum

/-- the lines keep within the line bound, and with what was read within the record and wire budgets -/
structure Within (b : ResponseBudget) (lines : List Bytes) : Prop where
  line : ∀ l ∈ lines, l.length ≤ maxControlLineBytes
  records : b.records + lines.length ≤ maxResponseRecords
  wire : b.wireBytes + wireLength lines ≤ maxResponseWireBytes

/-- the budget after the lines -/
def ResponseBudget.after (b : ResponseBudget) (lines : List Bytes) : ResponseBudget :=
  ⟨b.records + lines.length, b.wireBytes + wireLength lines⟩

theorem Within.observe {b : ResponseBudget} {l : Bytes} {lines : List Bytes} (h : Within b (l :: lines)) :
    b.observe l = .ok (b.after [l]) := by
  have h1 := h.records
  have h2 := h.wire
  simp only [List.length_cons, wireLength, List.map_cons, List.sum_cons] at h1 h2
  have hb : (decide (b.records + 1 ≤ maxResponseRecords) && decide (b.wireBytes + l.length ≤ maxResponseWireBytes)) = true := by
    simp only [Bool.and_eq_true, decide_eq_true_eq]
    omega
  simp only [ResponseBudget.observe, hb, require, if_true, ResponseBudget.after, wireLength, List.map_cons, List.map_nil,
    List.sum_cons, List.sum_nil, List.length_cons, List.length_nil]
  rfl

theorem Within.tail {b : ResponseBudget} {l : Bytes} {lines : List Bytes} (h : Within b (l :: lines)) :
    Within (b.after [l]) lines := by
  have h1 := h.records
  have h2 := h.wire
  simp only [List.length_cons, wireLength, List.map_cons, List.sum_cons] at h1 h2
  refine ⟨fun k hk => h.line k (List.mem_cons_of_mem _ hk), ?_, ?_⟩
  · simp only [ResponseBudget.after, List.length_cons, List.length_nil]
    omega
  · simp only [ResponseBudget.after, wireLength, List.map_cons, List.map_nil, List.sum_cons, List.sum_nil]
    omega

/-! ## Notifications -/

/-- the events of a well-formed notification -/
def Note.events (n : Note) : List ControlEvent :=
  match parseNotification n.line with
  | .ok notice => notice.events
  | .error _ => []

def Note.WellFormed (n : Note) : Prop := ∃ notice, parseNotification n.line = .ok notice

/-- a notification is delivered where no block is being written -/
theorem nextLine_note (n : Note) (hw : s.wire = []) (hs : s.script = .note n :: ms)
    (hl : n.line.length ≤ maxControlLineBytes) :
    nextLine true s = (.ok n.line, { s with script := ms, log := s.log ++ [Entry.note n.line] }) := by
  simp [nextLine, hs, nextLineFrom, hw, deliver, Nat.not_lt.2 hl]

/-- a well-formed notification before the opening record: queued, or the queue's error -/
theorem readResponseFrom_note (n : Note) (hn : n.WellFormed) {r : Reading} (hm : r.marker = none) (hw : s.wire = [])
    (hs : s.script = .note n :: ms) {lines : List Bytes} (hb : Within r.budget (n.line :: lines)) (hq : Fits s []) :
    (Fits s n.events → readResponseFrom max (fuel + 1) r s =
        readResponseFrom max fuel { r with budget := r.budget.after [n.line] }
          ({ s with script := ms, log := s.log ++ [Entry.note n.line] }.push n.events)) ∧
      (¬ Fits s n.events → ∃ s', readResponseFrom max (fuel + 1) r s = (.error .protocol, s')) := by
  obtain ⟨notice, hnotice⟩ := hn
  have hev : n.events = notice.events := by rw [Note.events, hnotice]
  have hline := nextLine_note n hw hs (hb.line _ List.mem_cons_self)
  have hing : ∀ t, ingestNotification n.line t = queueNotice notice t := by
    intro t
    rw [ingestNotification_eq n.plain, hnotice, bind_of_ok (lift_ok _ _)]
  obtain ⟨hok, herr⟩ := queueNotice_eq notice { s with script := ms, log := s.log ++ [Entry.note n.line] } hq
  rw [hev, readResponseFrom_line hline hb.observe, observeLine_note max (by exact hm) n.plain]
  refine ⟨fun hf => ?_, fun hf => ?_⟩
  · rw [bind_of_ok ((hing _).trans (hok hf))]
    rfl
  · obtain ⟨s', hs', -⟩ := herr hf
    rw [bind_of_error ((hing _).trans hs')]
    exact ⟨s', rfl⟩

theorem fits_append {a b : List ControlEvent} : Fits s (a ++ b) ↔ Fits (s.push a) b ∧ Fits s a := by
  simp only [Fits, St.push, List.length_append, outputBytes_append]
  omega

theorem push_nil (s : St) : s.push [] = s := by simp [St.push, outputBytes]

/-- **Notifications.** Before the opening record the reader queues every notification, or the queue refuses one. -/
theorem notes_run (notes : List Note) (hn : ∀ n ∈ notes, n.WellFormed) {r : Reading} (hm : r.marker = none)
    (hw : s.wire = []) (hs : s.script = notes.map Move.note ++ ms) {lines : List Bytes}
    (hb : Within r.budget (notes.map Note.line ++ lines)) (hq : Fits s []) :
    (Fits s (notes.flatMap Note.events) → readResponseFrom max (fuel + notes.length) r s =
        readResponseFrom max fuel { r with budget := r.budget.after (notes.map Note.line) }
          ({ s with script := ms, log := s.log ++ notes.map fun n : Note => Entry.note n.line }.push (notes.flatMap Note.events))) ∧
      (¬ Fits s (notes.flatMap Note.events) → ∃ s', readResponseFrom max (fuel + notes.length) r s = (.error .protocol, s')) := by
  induction notes generalizing s r with
  | nil =>
    refine ⟨fun _ => ?_, fun h => (h hq).elim⟩
    simp only [List.map_nil, List.nil_append] at hs
    simp [push_nil, ← hs, ResponseBudget.after, wireLength]
  | cons n notes ih =>
    simp only [List.map_cons, List.cons_append] at hs hb
    obtain ⟨h1, h2⟩ := readResponseFrom_note max (fuel + notes.length) n (hn n List.mem_cons_self) hm hw hs hb hq
    rw [List.flatMap_cons, fits_append, List.length_cons, ← Nat.add_assoc]
    by_cases hf : Fits s n.events
    · rw [h1 hf]
      have hq' : Fits ({ s with script := notes.map Move.note ++ ms, log := s.log ++ [Entry.note n.line] }.push n.events) [] :=
        (fits_append (s := s).1 (by rwa [List.append_nil])).1
      obtain ⟨i1, i2⟩ := ih (s := { s with script := notes.map Move.note ++ ms, log := s.log ++ [Entry.note n.line] }.push n.events)
        (r := { r with budget := r.budget.after [n.line] }) (fun k hk => hn k (List.mem_cons_of_mem _ hk)) hm hw rfl hb.tail hq'
      refine ⟨fun h => ?_, fun h => i2 fun hf' => h ⟨hf', hf⟩⟩
      rw [i1 h.1]
      congr 1
      · simp [ResponseBudget.after, wireLength, Nat.add_assoc, Nat.add_comm, Nat.add_left_comm]
      · simp [St.push, outputBytes_append, Nat.add_assoc]
    · exact ⟨fun h => (hf h.2).elim, fun _ => h2 hf⟩

/-! ## Rows -/

theorem reserved_eq_false {row : Bytes} : reserved row = false ↔
    stripHead endMark row = none ∧ stripHead errorMark row = none ∧ stripHead beginMark row = none := by
  simp only [reserved, Bool.or_eq_false_iff, startsWith_eq_false]
  tauto

/-- a row that only looks like a record fails the read -/
theorem observeLine_reserved {r : Reading} {m : Marker} (hm : r.marker = some m) {line : Bytes} (hr : reserved line = true)
    (hopen : ¬ Closes m line) (s : St) : ∃ e, observeLine max r line s = (.error e, s) := by
  simp only [observeLine, hm]
  cases he : parseMarker line endMark with
  | error e => exact ⟨e, bind_of_error (lift_error _ _) _⟩
  | ok o =>
    rw [bind_of_ok (lift_ok _ _)]
    cases o with
    | some e =>
      have hne : m ≠ e := by
        rintro rfl
        exact hopen (Or.inl he)
      exact ⟨.protocol, by simp only [if_neg hne, fail_apply]⟩
    | none =>
      dsimp only
      cases hf : parseMarker line errorMark with
      | error e => exact ⟨e, bind_of_error (lift_error _ _) _⟩
      | ok o =>
        rw [bind_of_ok (lift_ok _ _)]
        cases o with
        | some e =>
          have hne : m ≠ e := by
            rintro rfl
            exact hopen (Or.inr hf)
          exact ⟨.protocol, by simp only [if_neg hne, fail_apply]⟩
        | none =>
          -- neither marker's head is there, so the row begins with the third
          have h1 : startsWith line endMark = false := by
            by_contra h
            exact parseMarker_ne_none (by simpa using h) he
          have h2 : startsWith line errorMark = false := by
            by_contra h
            exact parseMarker_ne_none (by simpa using h) hf
          have h3 : startsWith line beginMark = true := by simpa [reserved, h1, h2] using hr
          exact ⟨.protocol, by simp only [h3, if_true, fail_apply]⟩

/-- the next line of the block being written -/
theorem nextLine_rest {l : WireLine} {w : List WireLine} (hw : s.wire = l :: w) (hs : s.script = .rest :: ms)
    (hl : l.line.length ≤ maxControlLineBytes) :
    nextLine true s = (.ok l.line, { s with
      wire := w, script := ms, log := s.log ++ l.closes.toList.map fun c => Entry.closed c.1 c.2.1 c.2.2 }) := by
  simp [nextLine, hs, nextLineFrom, hw, deliver, Nat.not_lt.2 hl]

def payloadLength (rows : List Bytes) : ℕ := (rows.map fun r => (stripNewline r).length).sum

/-- the reading after some rows -/
def Reading.after (r : Reading) (rows : List Bytes) : Reading :=
  { r with
    size := r.size + payloadLength rows, budget := r.budget.after rows, result := r.result ++ rows.map stripNewline }

/-- **Rows.** Inside a block the reader keeps every row, unless one has a reserved head. -/
theorem rows_run (rows : List Bytes) {r : Reading} {m : Marker} (hm : r.marker = some m) (hopen : ∀ l ∈ rows, ¬ Closes m l)
    {w : List WireLine} (hw : s.wire = rows.map (fun row => ⟨row, none⟩) ++ w)
    (hs : s.script = List.replicate rows.length .rest ++ ms) {lines : List Bytes} (hb : Within r.budget (rows ++ lines))
    (hp : r.size + payloadLength rows ≤ max) :
    ((∀ row ∈ rows, reserved row = false) → readResponseFrom max (fuel + rows.length) r s =
        readResponseFrom max fuel (r.after rows) { s with wire := w, script := ms }) ∧
      (∀ row ∈ rows, reserved row = true → ∃ e s', readResponseFrom max (fuel + rows.length) r s = (.error e, s')) := by
  induction rows generalizing s r with
  | nil =>
    refine ⟨fun _ => ?_, by simp⟩
    simp only [List.map_nil, List.nil_append, List.length_nil, List.replicate_zero] at hw hs
    simp [Reading.after, payloadLength, ResponseBudget.after, wireLength, ← hw, ← hs]
  | cons row rows ih =>
    simp only [List.map_cons, List.cons_append, List.length_cons, List.replicate_succ] at hw hs hb
    have hline := nextLine_rest hw hs (hb.line _ List.mem_cons_self)
    have hsize : r.size + (stripNewline row).length ≤ max ∧
        r.size + (stripNewline row).length + payloadLength rows ≤ max := by
      simp only [payloadLength, List.map_cons, List.sum_cons] at hp ⊢
      omega
    -- the state after the row: the rest of the block and of the script, nothing logged
    obtain ⟨s₁, hline₁, hw₁, hs₁, hback⟩ : ∃ s₁, nextLine true s = (.ok row, s₁) ∧
        s₁.wire = rows.map (fun row => ⟨row, none⟩) ++ w ∧ s₁.script = List.replicate rows.length .rest ++ ms ∧
        { s₁ with wire := w, script := ms } = { s with wire := w, script := ms } :=
      ⟨_, hline, rfl, rfl, by simp⟩
    rw [List.length_cons, ← Nat.add_assoc, readResponseFrom_line hline₁ hb.observe]
    by_cases hr : reserved row = true
    · obtain ⟨e, he⟩ := observeLine_reserved max (r := { r with budget := r.budget.after [row] }) hm hr
        (hopen row List.mem_cons_self) s₁
      rw [he]
      exact ⟨fun h => by simp [h row List.mem_cons_self] at hr, fun _ _ _ => ⟨e, s₁, rfl⟩⟩
    · have hr' : reserved row = false := by simpa using hr
      obtain ⟨h1, h2, h3⟩ := reserved_eq_false.1 hr'
      have hobs := observeLine_row max (r := { r with budget := r.budget.after [row] }) hm h1 h2 h3 s₁
      rw [if_neg (Nat.not_lt.2 hsize.1)] at hobs
      rw [hobs]
      obtain ⟨i1, i2⟩ := ih (s := s₁) (r := r.after [row]) hm (fun l hl => hopen l (List.mem_cons_of_mem _ hl)) hw₁ hs₁
        hb.tail (by simpa [Reading.after, payloadLength] using hsize.2)
      have hgo : continueReading max (fuel + rows.length) (.ok (.inl { r with
            budget := r.budget.after [row], size := r.size + (stripNewline row).length
            result := r.result ++ [stripNewline row] }), s₁) =
          readResponseFrom max (fuel + rows.length) (r.after [row]) s₁ := by
        simp [continueReading, Reading.after, payloadLength]
      rw [hgo]
      refine ⟨fun h => ?_, fun k hk hkr => ?_⟩
      · rw [i1 fun k hk => h k (List.mem_cons_of_mem _ hk), hback]
        simp [Reading.after, payloadLength, ResponseBudget.after, wireLength, Nat.add_assoc, Nat.add_comm, Nat.add_left_comm]
      · rcases List.mem_cons.1 hk with rfl | hk
        · rw [hr'] at hkr
          cases hkr
        · exact i2 k hk hkr

/-! ## A whole response -/

/-- notifications, then the block of an answer that succeeds -/
structure Stream where
  notes : List Note
  answer : Answer
  ok : answer.ok = true

def Stream.lines (t : Stream) : List Bytes := t.notes.map Note.line ++ t.answer.opening :: (t.answer.rows ++ [t.answer.closing])

def Stream.script (t : Stream) : List Move :=
  t.notes.map .note ++ .answer t.answer :: List.replicate (t.answer.rows.length + 1) .rest

def Stream.events (t : Stream) : List ControlEvent := t.notes.flatMap Note.events

/-- the notifications are well formed and everything is within the line, record, wire and payload budgets -/
structure Stream.Admissible (t : Stream) (max : ℕ) : Prop where
  notes : ∀ n ∈ t.notes, n.WellFormed
  budget : Within ⟨0, 0⟩ t.lines
  payload : payloadLength t.answer.rows ≤ max

/-- the response is the rows, and the events of the notifications are queued, in order; nothing else changes -/
def Stream.Meets (t : Stream) (max : ℕ) (s : St) (ms : List Move) (c : Command) (cs : List Command)
    (lines : List (List Command)) : Prop :=
  readResponseFrom max (maxResponseRecords + 1) .init s =
    (.ok (t.answer.rows.map stripNewline), { s with
      events := s.events ++ t.events
      queuedOutputBytes := s.queuedOutputBytes + outputBytes t.events
      script := ms
      pending := t.answer.leaves cs lines
      log := s.log ++ (t.notes.map fun n : Note => Entry.note n.line) ++ [.closed c (t.answer.rows.map stripNewline) true] })

/-- the opening record begins the block of the first pending command -/
theorem nextLine_answer {a : Answer} {c : Command} {cs : List Command} {lines : List (List Command)} (hw : s.wire = [])
    (hp : s.pending = (c :: cs) :: lines) (hs : s.script = .answer a :: ms) (hl : a.opening.length ≤ maxControlLineBytes) :
    nextLine true s = (.ok a.opening, { s with script := ms, wire := a.wire c a.rows, pending := a.leaves cs lines }) := by
  simp only [nextLine, hs, nextLineFrom, hw, hp, deliver, if_neg (Nat.not_lt.2 hl), List.append_nil]
  rfl

/-- the budget left for the part of the lines behind a first part -/
theorem Within.append {b : ResponseBudget} {l₁ l₂ : List Bytes} (h : Within b (l₁ ++ l₂)) : Within (b.after l₁) l₂ := by
  induction l₁ generalizing b with
  | nil => simpa [ResponseBudget.after, wireLength] using h
  | cons l l₁ ih =>
    have := ih h.tail
    simpa [ResponseBudget.after, wireLength, Nat.add_assoc, Nat.add_comm, Nat.add_left_comm] using this

/-- **A block.** The reader returns the rows of a block, unless one has a reserved head. -/
theorem block_run (a : Answer) (hok : a.ok = true) {c : Command} {cs : List Command} {lines : List (List Command)}
    {r : Reading} (hm : r.marker = none) (hw : s.wire = []) (hp : s.pending = (c :: cs) :: lines)
    (hs : s.script = .answer a :: (List.replicate (a.rows.length + 1) .rest ++ ms))
    (hb : Within r.budget (a.opening :: (a.rows ++ [a.closing]))) (hpay : r.size + payloadLength a.rows ≤ max) :
    ((∀ row ∈ a.rows, reserved row = false) → readResponseFrom max (fuel + 1 + a.rows.length + 1) r s =
        (.ok (r.result ++ a.rows.map stripNewline), { s with
          script := ms, pending := a.leaves cs lines, log := s.log ++ [.closed c (a.rows.map stripNewline) true] })) ∧
      (∀ row ∈ a.rows, reserved row = true → ∃ e s', readResponseFrom max (fuel + 1 + a.rows.length + 1) r s = (.error e, s')) := by
  -- the opening record puts the rows and the closing record on the wire
  obtain ⟨s₁, hline, hw₁, hs₁, hback⟩ : ∃ s₁, nextLine true s = (.ok a.opening, s₁) ∧
      s₁.wire = a.rows.map (fun row => ⟨row, none⟩) ++ [⟨a.closing, some (c, a.rows.map stripNewline, a.ok)⟩] ∧
      s₁.script = List.replicate a.rows.length .rest ++ (.rest :: ms) ∧
      ∀ w ms' log, ({ s₁ with wire := w, script := ms', log := log } : St) =
        { s with wire := w, script := ms', log := log, pending := a.leaves cs lines } := by
    refine ⟨_, nextLine_answer hw hp hs (hb.line _ List.mem_cons_self), rfl, ?_, fun _ _ _ => rfl⟩
    show List.replicate (a.rows.length + 1) Move.rest ++ ms = _
    rw [List.replicate_succ', List.append_assoc]
    rfl
  have hlog : s₁.log = s.log := by
    have := (nextLine_answer hw hp hs (hb.line _ List.mem_cons_self)).symm.trans hline
    rw [Prod.mk.injEq] at this
    rw [← this.2]
  obtain ⟨r1, r2⟩ := rows_run max (fuel + 1) (s := s₁) a.rows
    (r := { r with marker := some a.marker, budget := r.budget.after [a.opening] }) rfl a.rowsOpen hw₁ hs₁ hb.tail hpay
  rw [readResponseFrom_line hline hb.observe, observeLine_opening max (by exact hm) a.opens]
  refine ⟨fun h => (r1 h).trans ?_, r2⟩
  have hb₁ := hb.tail.append
  have hend : parseMarker a.closing endMark = .ok (some a.marker) := by
    have := a.closes
    rwa [hok, if_pos rfl] at this
  rw [readResponseFrom_line (nextLine_rest rfl rfl (hb₁.line _ List.mem_cons_self)) hb₁.observe, observeLine_end max rfl hend]
  simp only [continueReading, Reading.after, hok, hlog, Option.toList, List.map_cons, List.map_nil, hback, hw]

theorem payload_read (t : Stream) (ha : t.Admissible max) {c : Command} {cs : List Command} {lines : List (List Command)}
    (hq : Fits s []) (hw : s.wire = []) (hp : s.pending = (c :: cs) :: lines) (hs : s.script = t.script ++ ms) :
    (Fits s t.events ∧ (∀ row ∈ t.answer.rows, reserved row = false) → t.Meets max s ms c cs lines) ∧
      (¬ (Fits s t.events ∧ ∀ row ∈ t.answer.rows, reserved row = false) →
        ∃ e s', readResponseFrom max (maxResponseRecords + 1) .init s = (.error e, s')) := by
  obtain ⟨hnotes, hbudget, hpay⟩ := ha
  have hrec := hbudget.records
  simp only [Stream.lines, List.length_append, List.length_map, List.length_cons, List.length_nil] at hrec
  -- one unit of fuel a line
  obtain ⟨fuel, hfuel⟩ : ∃ fuel, maxResponseRecords + 1 = fuel + 1 + t.answer.rows.length + 1 + t.notes.length :=
    ⟨maxResponseRecords + 1 - (t.notes.length + t.answer.rows.length + 2), by omega⟩
  have hb : Within Reading.init.budget (t.notes.map Note.line ++ t.answer.opening :: (t.answer.rows ++ [t.answer.closing])) :=
    hbudget
  have hs' : s.script = t.notes.map Move.note ++
      (.answer t.answer :: (List.replicate (t.answer.rows.length + 1) .rest ++ ms)) := by
    rw [hs, Stream.script, List.append_assoc, List.cons_append]
  obtain ⟨n1, n2⟩ := notes_run max (fuel + 1 + t.answer.rows.length + 1) t.notes hnotes
    (r := .init) rfl hw hs' hb hq
  rw [Stream.Meets, hfuel]
  by_cases hf : Fits s t.events
  · rw [n1 hf]
    obtain ⟨b1, b2⟩ := block_run max fuel t.answer t.ok
      (s := { s with
        script := .answer t.answer :: (List.replicate (t.answer.rows.length + 1) Move.rest ++ ms)
        log := s.log ++ t.notes.map fun n : Note => Entry.note n.line }.push (t.notes.flatMap Note.events))
      (r := { Reading.init with budget := Reading.init.budget.after (t.notes.map Note.line) }) rfl hw hp rfl hb.append
      (by simpa [Reading.init] using hpay)
    refine ⟨fun h => ?_, fun h => ?_⟩
    · rw [b1 h.2]
      simp [Reading.init, St.push, Stream.events]
    · push Not at h
      obtain ⟨row, hrow, hres⟩ := h hf
      exact b2 row hrow (by simpa using hres)
  · obtain ⟨s', he⟩ := n2 hf
    exact ⟨fun h => (hf h.1).elim, fun _ => ⟨_, s', he⟩⟩

/-- **Guarded payload.** For every stream of well-formed notifications and one block within the budgets, the read returns
exactly the rows and queues exactly the events of the notifications, if and only if the queue has room for these events
and no row begins with `%begin `, `%end ` or `%error `. -/
theorem payload_meets (t : Stream) (max : ℕ) (s : St) (ms : List Move) (c : Command) (cs : List Command)
    (lines : List (List Command)) (ha : t.Admissible max) (hq : Fits s []) (hw : s.wire = [])
    (hp : s.pending = (c :: cs) :: lines) (hs : s.script = t.script ++ ms) :
    t.Meets max s ms c cs lines ↔ Fits s t.events ∧ ∀ row ∈ t.answer.rows, reserved row = false := by
  obtain ⟨h1, h2⟩ := payload_read max t ha hq hw hp hs
  refine ⟨fun hm => ?_, h1⟩
  by_contra hn
  obtain ⟨e, s', he⟩ := h2 hn
  rw [Stream.Meets, he] at hm
  cases hm

theorem opening_opens : parseMarker (ascii "%begin 1700000000 42 1\n") beginMark = .ok (some ⟨1700000000, 42, 1⟩) := by
  decide +kernel

theorem closing_closes : parseMarker (ascii "%end 1700000000 42 1\n") endMark = .ok (some ⟨1700000000, 42, 1⟩) := by
  decide +kernel

/-- a capture of one row, behind one output notification -/
def captureStream (row : Bytes) (h : ¬ Closes ⟨1700000000, 42, 1⟩ row) : Stream where
  notes := [⟨ascii "%output %1 hi\n", by decide +kernel⟩]
  answer :=
    { marker := ⟨1700000000, 42, 1⟩, opening := ascii "%begin 1700000000 42 1\n", rows := [row], ok := true
      closing := ascii "%end 1700000000 42 1\n", opens := opening_opens
      rowsOpen := fun l hl => by rw [List.mem_singleton.1 hl]; exact h
      closes := closing_closes }
  ok := rfl

def captureState (t : Stream) : St := { St.init t.script with pending := [[.capture "%1".toList]] }

def plainRow : Bytes := ascii "100% done\n"
def looksLikeEnd : Bytes := ascii "%end of file\n"

/-- a screen row with a per cent sign is returned as it is -/
theorem payload_plainRow :
    (captureStream plainRow (by decide +kernel)).Meets attachmentMaxPaneSnapshotBytes
      (captureState (captureStream plainRow (by decide +kernel))) [] (.capture "%1".toList) [] [] := by
  refine (payload_meets _ _ _ _ _ _ _ ⟨?_, ⟨?_, ?_, ?_⟩, ?_⟩ ?_ rfl rfl ?_).2 ⟨?_, ?_⟩
  · intro n hn
    rw [List.mem_singleton.1 hn]
    exact ⟨.output "%1".toList (ascii "hi"), by decide +kernel⟩
  · decide +kernel
  · decide +kernel
  · decide +kernel
  · decide +kernel
  · decide +kernel
  · exact (List.append_nil _).symm
  · decide +kernel
  · decide +kernel

/-- **A screen row that looks like a record.** The row `%end of file` is no closing record, yet the read of the capture
fails with a protocol error and the response is lost. -/
theorem screen_row_refused :
    ¬ Closes ⟨1700000000, 42, 1⟩ looksLikeEnd ∧
      (readResponseFrom attachmentMaxPaneSnapshotBytes (maxResponseRecords + 1) .init
        (captureState (captureStream looksLikeEnd (by decide +kernel)))).1 = .error .protocol ∧
      ¬ (captureStream looksLikeEnd (by decide +kernel)).Meets attachmentMaxPaneSnapshotBytes
        (captureState (captureStream looksLikeEnd (by decide +kernel))) [] (.capture "%1".toList) [] [] := by
  have h : (readResponseFrom attachmentMaxPaneSnapshotBytes (maxResponseRecords + 1) .init
      (captureState (captureStream looksLikeEnd (by decide +kernel)))).1 = .error .protocol := by decide +kernel
  refine ⟨by decide +kernel, h, fun hm => ?_⟩
  rw [Stream.Meets] at hm
  rw [hm] at h
  cases h

end OwlMux.Tmux
