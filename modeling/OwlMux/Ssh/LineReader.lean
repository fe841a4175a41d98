/-
Reading bounded lines of the control child (`ssh.rs`, `read_bounded_line_into`).

The reader hands out the stream in whatever pieces it likes: each `fill_buf` gives some first bytes of what has not been consumed
yet, nothing only at the end. A call may be dropped while it waits, and the next call goes on with the same `pending`.

Results, over every stream, every sequence of calls and every way the stream is handed out:
- `turn_cases`: what one round of the loop does;
- `readBoundedLineInto_spec`: a call returns the next line, or leaves the unread text as it was;
- `bounded_lines`: the lines returned are the first lines of the stream, in order; a call is refused only for a line that is too
  long; and a call that is not dropped returns the next line, or is refused, or finds the end.
-/
import OwlMux.Lib.Records

namespace OwlMux.Ssh

open Records

def newline : UInt8 := 10

/-! ## One call -/

/-- the bytes read of the line so far, and the bytes of the stream not consumed -/
structure LineState where
  pending : List UInt8
  rest : List UInt8
deriving DecidableEq, Repr

inductive LineOutcome where
  | line (l : List UInt8)
  | unavailable
  | proofFailed
  -- dropped while it waits
  | cancelled
deriving DecidableEq, Repr

/-- what `fill_buf` does: `ready n` has up to `n + 1` bytes -/
inductive Poll where
  | ready (n : ℕ)
  | failed
deriving DecidableEq, Repr

inductive Turn where
  | done (o : LineOutcome) (s : LineState)
  | more (s : LineState)
deriving DecidableEq, Repr

/-- up to and with the newline -/
def takeLen (buffer : List UInt8) : ℕ :=
  match buffer.findIdx? (· = newline) with
  | some position => position + 1
  | none => buffer.length

/-- one round of the loop -/
def turn (maxBytes : ℕ) (s : LineState) (buffer : List UInt8) : Turn :=
  if buffer.isEmpty then .done .unavailable s
  else if maxBytes < s.pending.length + takeLen buffer then .done .proofFailed s
  else if buffer[takeLen buffer - 1]? = some newline then
    .done (.line (s.pending ++ buffer.take (takeLen buffer))) ⟨[], s.rest.drop (takeLen buffer)⟩
  else .more ⟨s.pending ++ buffer.take (takeLen buffer), s.rest.drop (takeLen buffer)⟩

def readBoundedLineInto (maxBytes : ℕ) : List Poll → LineState → LineOutcome × LineState
  | [], s => (.cancelled, s)
  | .failed :: _, s => (.unavailable, s)
  | .ready n :: polls, s =>
    match turn maxBytes s (s.rest.take (n + 1)) with
    | .done o s' => (o, s')
    | .more s' => readBoundedLineInto maxBytes polls s'

/-- calls one after the other, each with the polls made during it -/
def calls (maxBytes : ℕ) : List (List Poll) → LineState → List LineOutcome × LineState
  | [], s => ([], s)
  | polls :: plan, s =>
    let r := readBoundedLineInto maxBytes polls s
    let rs := calls maxBytes plan r.2
    (r.1 :: rs.1, rs.2)

def LineOutcome.line? : LineOutcome → Option (List UInt8)
  | .line l => some l
  | _ => none

/-- the successful results -/
def returned (outs : List LineOutcome) : List (List UInt8) := outs.filterMap LineOutcome.line?

/-! ## What a round does -/

theorem takeLen_newline {w post : List UInt8} (h : newline ∉ w) : takeLen (w ++ newline :: post) = w.length + 1 := by
  have hfind : (w ++ newline :: post).findIdx? (· = newline) = some w.length := by
    rw [List.findIdx?_append, List.findIdx?_eq_none_iff.2]
    · simp [List.findIdx?_cons]
    · intro b hb
      exact decide_eq_false fun heq => h (heq ▸ hb)
  rw [takeLen, hfind]

theorem takeLen_plain {buffer : List UInt8} (h : newline ∉ buffer) : takeLen buffer = buffer.length := by
  have hfind : buffer.findIdx? (· = newline) = none := by
    rw [List.findIdx?_eq_none_iff]
    intro b hb
    exact decide_eq_false fun heq => h (heq ▸ hb)
  rw [takeLen, hfind]

theorem turn_cases (maxBytes n : ℕ) (s : LineState) :
    (s.rest = [] ∧ turn maxBytes s (s.rest.take (n + 1)) = .done .unavailable s) ∨
    (∃ w rest, newline ∉ w ∧ s.rest = w ++ newline :: rest ∧
      turn maxBytes s (s.rest.take (n + 1)) =
        if maxBytes < s.pending.length + (w.length + 1) then .done .proofFailed s
        else .done (.line (s.pending ++ w ++ [newline])) ⟨[], rest⟩) ∨
    (∃ w rest, w ≠ [] ∧ newline ∉ w ∧ s.rest = w ++ rest ∧
      turn maxBytes s (s.rest.take (n + 1)) =
        if maxBytes < s.pending.length + w.length then .done .proofFailed s else .more ⟨s.pending ++ w, rest⟩) := by
  have hrest := List.take_append_drop (n + 1) s.rest
  generalize hbuffer : s.rest.take (n + 1) = buffer at hrest ⊢
  generalize s.rest.drop (n + 1) = after at hrest
  by_cases hempty : buffer = []
  · left
    subst hempty
    exact ⟨by simpa using hbuffer, rfl⟩
  right
  have hnonempty : buffer.isEmpty = false := by simpa using hempty
  rcases split_first newline buffer with hplain | ⟨w, post, hw, hsplit⟩
  · right
    refine ⟨buffer, after, hempty, hplain, hrest.symm, ?_⟩
    have hlast : buffer[buffer.length - 1]? ≠ some newline := fun h => hplain (List.mem_of_getElem? h)
    have hdrop : s.rest.drop buffer.length = after := by rw [← hrest, List.drop_left]
    rw [turn, hnonempty, takeLen_plain hplain, if_neg hlast, List.take_length, hdrop]
    rfl
  · left
    refine ⟨w, post ++ after, hw, by rw [← hrest, hsplit]; simp, ?_⟩
    have hlast : buffer[w.length]? = some newline := by
      rw [hsplit, List.getElem?_append_right le_rfl, Nat.sub_self, List.getElem?_cons_zero]
    have htake : buffer.take (w.length + 1) = w ++ [newline] := by
      rw [hsplit, List.take_append, List.take_of_length_le (Nat.le_succ _)]
      simp
    have hdrop : s.rest.drop (w.length + 1) = post ++ after := by
      have hshape : s.rest = (w ++ [newline]) ++ (post ++ after) := by
        rw [← hrest, hsplit]
        simp
      have hlength : w.length + 1 = (w ++ [newline]).length := by simp
      rw [hshape, hlength, List.drop_left]
    have htakeLen : takeLen buffer = w.length + 1 := by rw [hsplit, takeLen_newline hw]
    rw [turn, hnonempty, htakeLen, Nat.add_sub_cancel, if_pos hlast, htake, hdrop, List.append_assoc]
    rfl

/-! ## What a call returns -/

/-- nothing of the next line has been read, or a part of it that is not too long -/
structure LineState.Ok (maxBytes : ℕ) (s : LineState) : Prop where
  plain : newline ∉ s.pending
  bound : s.pending.length ≤ maxBytes

/-- the text that no call has returned -/
def LineState.unread (s : LineState) : List UInt8 := s.pending ++ s.rest

/-- the line that comes next, if it is not too long; at the end of the stream there is none -/
def nextOutcome (maxBytes : ℕ) (unread : List UInt8) : LineOutcome :=
  if maxBytes < (current newline unread).length then .proofFailed
  else
    match (records newline unread).1 with
    | l :: _ => .line l
    | [] => .unavailable

variable {maxBytes : ℕ} {s : LineState}

theorem nextOutcome_record {w rest : List UInt8} (h : newline ∉ w) :
    nextOutcome maxBytes (w ++ newline :: rest) =
      if maxBytes < w.length + 1 then .proofFailed else .line (w ++ [newline]) := by
  rw [nextOutcome, current_record h, records_cons_record h, List.length_append, List.length_singleton]

theorem nextOutcome_failed {w rest : List UInt8} (h : newline ∉ w) (hlong : maxBytes < w.length) :
    nextOutcome maxBytes (w ++ rest) = .proofFailed :=
  if_pos (hlong.trans_le (length_le_current h rest))

theorem nextOutcome_tail {w : List UInt8} (h : newline ∉ w) (hle : w.length ≤ maxBytes) :
    nextOutcome maxBytes w = .unavailable := by
  rw [nextOutcome, current_of_not_mem h, records_of_not_mem h, if_neg (not_lt.2 hle)]

theorem LineState.Ok.plain_append (h : s.Ok maxBytes) {w : List UInt8} (hw : newline ∉ w) : newline ∉ s.pending ++ w := by
  rw [List.mem_append, not_or]
  exact ⟨h.plain, hw⟩

/-- what a call may have done: the next line is returned, or the text is as it was -/
structure CallOk (maxBytes : ℕ) (s : LineState) (r : LineOutcome × LineState) : Prop where
  ok : r.2.Ok maxBytes
  unread : s.unread = (r.1.line?.getD []) ++ r.2.unread
  line : ∀ l, r.1 = .line l → nextOutcome maxBytes s.unread = .line l ∧ IsRecord newline l
  failed : r.1 = .proofFailed → nextOutcome maxBytes s.unread = .proofFailed

theorem readBoundedLineInto_spec (polls : List Poll) (h : s.Ok maxBytes) :
    CallOk maxBytes s (readBoundedLineInto maxBytes polls s) := by
  induction polls generalizing s with
  | nil => exact ⟨h, rfl, nofun, nofun⟩
  | cons p polls ih =>
    cases p with
    | failed => exact ⟨h, rfl, nofun, nofun⟩
    | ready n =>
      unfold readBoundedLineInto
      rcases turn_cases maxBytes n s with ⟨_, hturn⟩ | ⟨w, rest, hw, hrest, hturn⟩ | ⟨w, rest, _, hw, hrest, hturn⟩
      · rw [hturn]
        exact ⟨h, rfl, nofun, nofun⟩
      · -- the newline is there
        have hplain := h.plain_append hw
        have hunread : s.unread = (s.pending ++ w) ++ newline :: rest := by simp [LineState.unread, hrest]
        have hnext : nextOutcome maxBytes s.unread =
            if maxBytes < s.pending.length + (w.length + 1) then .proofFailed else .line (s.pending ++ w ++ [newline]) := by
          rw [hunread, nextOutcome_record hplain, List.length_append, Nat.add_assoc]
        rw [hturn]
        split_ifs at hnext ⊢
        · exact ⟨h, rfl, nofun, fun _ => hnext⟩
        · refine ⟨⟨List.not_mem_nil, Nat.zero_le _⟩, ?_, ?_, nofun⟩
          · rw [hunread]
            simp [LineOutcome.line?, LineState.unread]
          · intro l hl
            cases hl
            exact ⟨hnext, s.pending ++ w, hplain, rfl⟩
      · -- a part of the line
        have hplain := h.plain_append hw
        have hunread : s.unread = LineState.unread ⟨s.pending ++ w, rest⟩ := by simp [LineState.unread, hrest]
        rw [hturn]
        split_ifs with hlong
        · refine ⟨h, rfl, nofun, fun _ => ?_⟩
          rw [hunread]
          exact nextOutcome_failed hplain (by rwa [List.length_append])
        · have hok : LineState.Ok maxBytes ⟨s.pending ++ w, rest⟩ :=
            ⟨hplain, by rw [List.length_append]; exact not_lt.1 hlong⟩
          obtain ⟨hok', hunread', hline, hfailed⟩ := ih hok
          rw [← hunread] at hunread' hline hfailed
          exact ⟨hok', hunread', hline, hfailed⟩

/-- a call that is neither dropped nor failed by the reader returns what comes next -/
theorem readBoundedLineInto_ready (ns : List ℕ) (h : s.Ok maxBytes) (hns : s.rest.length < ns.length) :
    (readBoundedLineInto maxBytes (ns.map .ready) s).1 = nextOutcome maxBytes s.unread := by
  induction ns generalizing s with
  | nil => exact absurd hns (Nat.not_lt_zero _)
  | cons n ns ih =>
    rw [List.map_cons]
    unfold readBoundedLineInto
    rcases turn_cases maxBytes n s with ⟨hrest, hturn⟩ | ⟨w, rest, hw, hrest, hturn⟩ | ⟨w, rest, hne, hw, hrest, hturn⟩
    · rw [hturn, LineState.unread, hrest, List.append_nil]
      exact (nextOutcome_tail h.plain h.bound).symm
    · have hunread : s.unread = (s.pending ++ w) ++ newline :: rest := by simp [LineState.unread, hrest]
      rw [hturn, hunread, nextOutcome_record (h.plain_append hw), List.length_append, Nat.add_assoc]
      split_ifs <;> rfl
    · have hplain := h.plain_append hw
      have hunread : s.unread = LineState.unread ⟨s.pending ++ w, rest⟩ := by simp [LineState.unread, hrest]
      rw [hturn, hunread]
      split_ifs with hlong
      · exact (nextOutcome_failed hplain (by rwa [List.length_append])).symm
      · have hpos := List.length_pos_iff.2 hne
        have hlength : s.rest.length = w.length + rest.length := by rw [hrest, List.length_append]
        have hok : LineState.Ok maxBytes ⟨s.pending ++ w, rest⟩ :=
          ⟨hplain, by rw [List.length_append]; exact not_lt.1 hlong⟩
        refine ih hok ?_
        rw [List.length_cons] at hns
        show rest.length < ns.length
        omega

/-! ## Every sequence of calls -/

/-- what calls one after the other have done -/
structure CallsOk (maxBytes : ℕ) (s : LineState) (r : List LineOutcome × LineState) : Prop where
  ok : r.2.Ok maxBytes
  unread : s.unread = (returned r.1).flatten ++ r.2.unread
  lines : ∀ l ∈ returned r.1, IsRecord newline l ∧ l.length ≤ maxBytes
  failed : .proofFailed ∈ r.1 → nextOutcome maxBytes r.2.unread = .proofFailed

theorem length_le_of_nextOutcome {l : List UInt8} (h : nextOutcome maxBytes s.unread = .line l) : l.length ≤ maxBytes := by
  unfold nextOutcome at h
  split_ifs at h with hlong
  have hcurrent : current newline s.unread = l := by
    unfold current
    cases hrecords : (records newline s.unread).1 with
    | nil =>
      rw [hrecords] at h
      cases h
    | cons l' ls =>
      rw [hrecords] at h
      cases h
      rfl
  rw [← hcurrent]
  exact not_lt.1 hlong

theorem returned_cons (o : LineOutcome) (outs : List LineOutcome) :
    returned (o :: outs) = o.line?.toList ++ returned outs := by
  unfold returned
  cases h : o.line? with
  | none => rw [List.filterMap_cons_none h, Option.toList_none, List.nil_append]
  | some l => rw [List.filterMap_cons_some h, Option.toList_some, List.singleton_append]

theorem LineOutcome.eq_line_of_line? {o : LineOutcome} {l : List UInt8} (h : o.line? = some l) : o = .line l := by
  cases o with
  | line l' => exact congrArg _ (Option.some.inj h)
  | unavailable => cases h
  | proofFailed => cases h
  | cancelled => cases h

/-- a line that is too long is never passed -/
theorem CallOk.stuck {r : LineOutcome × LineState} (h : CallOk maxBytes s r)
    (hstuck : nextOutcome maxBytes s.unread = .proofFailed) : nextOutcome maxBytes r.2.unread = .proofFailed := by
  have hunread := h.unread
  cases hline : r.1.line? with
  | none =>
    rw [hline, Option.getD_none, List.nil_append] at hunread
    rw [← hunread]
    exact hstuck
  | some l =>
    have hnext := (h.line l (LineOutcome.eq_line_of_line? hline)).1
    cases hstuck.symm.trans hnext

theorem calls_stuck (plan : List (List Poll)) (h : s.Ok maxBytes) (hstuck : nextOutcome maxBytes s.unread = .proofFailed) :
    nextOutcome maxBytes (calls maxBytes plan s).2.unread = .proofFailed := by
  induction plan generalizing s with
  | nil => exact hstuck
  | cons polls plan ih =>
    have hcall := readBoundedLineInto_spec polls h
    exact ih hcall.ok (hcall.stuck hstuck)

theorem calls_spec (plan : List (List Poll)) (h : s.Ok maxBytes) : CallsOk maxBytes s (calls maxBytes plan s) := by
  induction plan generalizing s with
  | nil => exact ⟨h, rfl, nofun, nofun⟩
  | cons polls plan ih =>
    have hcall := readBoundedLineInto_spec polls h
    obtain ⟨iok, iunread, ilines, ifailed⟩ := ih hcall.ok
    rw [calls]
    refine ⟨iok, ?_, ?_, ?_⟩
    · rw [returned_cons, List.flatten_append, List.append_assoc, ← iunread, hcall.unread]
      cases (readBoundedLineInto maxBytes polls s).1.line? with
      | none => rfl
      | some l => simp
    · intro l hl
      rw [returned_cons, List.mem_append, Option.mem_toList] at hl
      rcases hl with hl | hl
      · obtain ⟨hnext, hrecord⟩ := hcall.line l (LineOutcome.eq_line_of_line? hl)
        exact ⟨hrecord, length_le_of_nextOutcome hnext⟩
      · exact ilines l hl
    · intro hmem
      rcases List.mem_cons.1 hmem with heq | hmem
      · exact calls_stuck plan hcall.ok (hcall.stuck (hcall.failed heq.symm))
      · exact ifailed hmem

/-- **Lines are framed the same however the stream is cut and the calls are dropped.** After any sequence of calls: the results are
    the first lines of the stream, in order and within the bound; they, `pending` and the bytes not consumed are the stream;
    `pending` is a part of the next line within the bound; a refusal means that the next line is too long; and a call that is not
    dropped returns the next line, refuses it because it is too long, or ends with the stream. -/
theorem bounded_lines (maxBytes : ℕ) (stream : List UInt8) (plan : List (List Poll)) :
    returned (calls maxBytes plan ⟨[], stream⟩).1 =
      (records newline stream).1.take (returned (calls maxBytes plan ⟨[], stream⟩).1).length ∧
    (returned (calls maxBytes plan ⟨[], stream⟩).1).flatten ++ (calls maxBytes plan ⟨[], stream⟩).2.pending ++
      (calls maxBytes plan ⟨[], stream⟩).2.rest = stream ∧
    (∀ l ∈ returned (calls maxBytes plan ⟨[], stream⟩).1, l.length ≤ maxBytes) ∧
    newline ∉ (calls maxBytes plan ⟨[], stream⟩).2.pending ∧ (calls maxBytes plan ⟨[], stream⟩).2.pending.length ≤ maxBytes ∧
    records newline (calls maxBytes plan ⟨[], stream⟩).2.unread =
      ((records newline stream).1.drop (returned (calls maxBytes plan ⟨[], stream⟩).1).length, (records newline stream).2) ∧
    (.proofFailed ∈ (calls maxBytes plan ⟨[], stream⟩).1 →
      maxBytes < (current newline (calls maxBytes plan ⟨[], stream⟩).2.unread).length) ∧
    ∀ ns : List ℕ, (calls maxBytes plan ⟨[], stream⟩).2.rest.length < ns.length →
      (readBoundedLineInto maxBytes (ns.map .ready) (calls maxBytes plan ⟨[], stream⟩).2).1 =
        nextOutcome maxBytes (calls maxBytes plan ⟨[], stream⟩).2.unread := by
  have hstart : LineState.Ok maxBytes ⟨[], stream⟩ := ⟨List.not_mem_nil, Nat.zero_le _⟩
  obtain ⟨hok, hunread, hlines, hfailed⟩ := calls_spec plan hstart
  generalize calls maxBytes plan ⟨[], stream⟩ = r at hok hunread hlines hfailed ⊢
  have hstream : stream = (returned r.1).flatten ++ r.2.unread := hunread
  have hrecords := records_append (fun l hl => (hlines l hl).1) r.2.unread
  rw [← hstream] at hrecords
  refine ⟨?_, ?_, fun l hl => (hlines l hl).2, hok.plain, hok.bound, ?_, ?_, ?_⟩
  · rw [hrecords, List.take_left]
  · rw [List.append_assoc]
    exact hstream.symm
  · rw [hrecords, List.drop_left]
  · intro hmem
    have hnext := hfailed hmem
    unfold nextOutcome at hnext
    split_ifs at hnext with hlong
    · exact hlong
    · split at hnext <;> cases hnext
  · intro ns hns
    exact readBoundedLineInto_ready ns hok hns

/-- Two lines and a tail, read with a bound of four: the first call is dropped twice, the tail is not returned. -/
theorem bounded_lines_tail :
    returned (calls 4 [[.ready 0], [.ready 1, .ready 5], [.ready 9], [.ready 9, .ready 9]] ⟨[], [97, 98, 10, 99, 10, 100]⟩).1 =
      [[97, 98, 10], [99, 10]] ∧
    (readBoundedLineInto 4 ([0, 0].map .ready)
      (calls 4 [[.ready 0], [.ready 1, .ready 5], [.ready 9], [.ready 9, .ready 9]] ⟨[], [97, 98, 10, 99, 10, 100]⟩).2).1 =
      .unavailable := by
  refine ⟨by decide +kernel, ?_⟩
  have hready := (bounded_lines 4 [97, 98, 10, 99, 10, 100]
    [[.ready 0], [.ready 1, .ready 5], [.ready 9], [.ready 9, .ready 9]]).2.2.2.2.2.2.2 [0, 0] (by decide +kernel)
  rw [hready]
  decide +kernel

end OwlMux.Ssh
