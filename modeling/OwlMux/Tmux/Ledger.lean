/-
The books of the event queue: what `ingest_notification` accepted of a pane's output, what `pop_event` handed out, what
`discard_captured_output` and `clear_events` removed, and the counter kept beside the queue.

A run is a sequence of queue operations that all succeed. It records the notifications accepted, the events popped and the events
removed; the adapter keeps none of these.

Results, after every run:
- `run_books`: the counter is the output in the queue and within its limit, as is the queue; every queued chunk has 1 to 16384
  bytes; and no byte of a pane is lost, repeated or moved: what was accepted is, in order, what was popped and is still queued,
  with the removed pieces in between.
-/
import Mathlib.Tactic
import OwlMux.Tmux.Queue

namespace OwlMux.Tmux

open OwlMux.Relay (Text)

/-! ## Runs -/

inductive QueueOp where
  | ingest (line : Bytes)
  | pop
  | clear
  | discard (paneId : Text)
deriving DecidableEq, Repr

structure Books where
  s : St
  accepted : List Bytes
  popped : List ControlEvent
  removed : List ControlEvent

/-- an operation that fails has no successor -/
def Books.apply (b : Books) : QueueOp → Option Books
  | .ingest line =>
    match ingestNotification line b.s with
    | (.ok _, s) => some { b with s := s, accepted := b.accepted ++ [line] }
    | _ => none
  | .pop =>
    match b.s.events with
    | [] => some b
    | e :: es => some { b with s := b.s.popped e es, popped := b.popped ++ [e] }
  | .clear => some { b with s := (clearEvents b.s).2, removed := b.removed ++ b.s.events }
  | .discard p =>
    some { b with s := (discardCapturedOutput p b.s).2, removed := b.removed ++ b.s.events.filter (isOutputOf p) }

def Books.run (b : Books) (ops : List QueueOp) : Option Books := ops.foldlM Books.apply b

def Books.init (script : List Move) : Books := ⟨St.init script, [], [], []⟩

/-! ## The invariant -/

/-- the pieces of a pane's output that stayed -/
def kept (pieces : List (Bytes × Bool)) : Bytes := (pieces.filter fun x => x.2).flatMap Prod.fst

/-- and those that were removed -/
def dropped (pieces : List (Bytes × Bool)) : Bytes := (pieces.filter fun x => !x.2).flatMap Prod.fst

/-- what has left the queue of a pane, in the order in which it was accepted -/
structure Left (b : Books) (p : Text) (pieces : List (Bytes × Bool)) : Prop where
  accepted : arrived p (b.accepted.map .note) = pieces.flatMap Prod.fst ++ queued p b.s.events
  popped : queued p b.popped = kept pieces
  removed : queued p b.removed = dropped pieces

structure Books.Ok (b : Books) : Prop where
  bytes : b.s.queuedOutputBytes = outputBytes b.s.events
  fits : Fits b.s []
  chunk : ∀ p d, .output p d ∈ b.s.events → 1 ≤ d.length ∧ d.length ≤ attachmentMaxTerminalChunkBytes
  left : ∀ p, ∃ pieces, Left b p pieces

theorem kept_append (a c : List (Bytes × Bool)) : kept (a ++ c) = kept a ++ kept c := by
  rw [kept, List.filter_append, List.flatMap_append]
  rfl

theorem dropped_append (a c : List (Bytes × Bool)) : dropped (a ++ c) = dropped a ++ dropped c := by
  rw [dropped, List.filter_append, List.flatMap_append]
  rfl

theorem init_ok (script : List Move) : (Books.init script).Ok :=
  ⟨rfl, ⟨Nat.zero_le _, Nat.zero_le _⟩, fun _ _ h => (List.not_mem_nil h).elim, fun _ => ⟨[], rfl, rfl, rfl⟩⟩

/-! ## Operations -/

variable {b b' : Books}

theorem events_chunk {n : Notice} {p : Text} {d : Bytes} (h : .output p d ∈ n.events) :
    1 ≤ d.length ∧ d.length ≤ attachmentMaxTerminalChunkBytes := by
  cases n with
  | output q data =>
    obtain ⟨c, hc, heq⟩ := List.mem_map.1 h
    cases heq
    exact chunks_length hc
  | refresh => simp [Notice.events] at h
  | exit => simp [Notice.events] at h
  | nothing => simp [Notice.events] at h

/-- an accepted notification is queued whole -/
theorem ingest_pushes {line : Bytes} {s s' : St} {u : Unit} (hfits : Fits s []) (h : ingestNotification line s = (.ok u, s')) :
    ∃ n, parseNotification line = .ok n ∧ Fits s n.events ∧ s'.events = s.events ++ n.events ∧
      s'.queuedOutputBytes = s.queuedOutputBytes + outputBytes n.events := by
  cases hn : parseNotification line with
  | error e =>
    rw [ingestNotification, hn] at h
    cases h
  | ok n =>
    refine ⟨n, rfl, ?_⟩
    rw [ingestNotification, hn] at h
    have hq : queueNotice n { s with stray := s.stray || startsWith line beginMark } = (.ok u, s') := h
    obtain ⟨hroom, hfull⟩ := queueNotice_eq n { s with stray := s.stray || startsWith line beginMark } hfits
    by_cases hevents : Fits { s with stray := s.stray || startsWith line beginMark } n.events
    · have hs' := (hroom hevents).symm.trans hq
      cases hs'
      exact ⟨hevents, rfl, rfl⟩
    · obtain ⟨t, ht, _⟩ := hfull hevents
      cases ht.symm.trans hq

theorem Books.Ok.ingest {line : Bytes} (hb : b.Ok) (h : b.apply (.ingest line) = some b') : b'.Ok := by
  unfold Books.apply at h
  dsimp only at h
  split at h
  · rename_i u s hs
    cases h
    obtain ⟨n, hn, hfits, hevents, hbytes⟩ := ingest_pushes hb.fits hs
    refine ⟨?_, ?_, ?_, ?_⟩
    · show s.queuedOutputBytes = outputBytes s.events
      rw [hbytes, hevents, outputBytes_append, hb.bytes]
    · show Fits s []
      unfold Fits at hfits ⊢
      rw [hevents, hbytes, List.length_append]
      exact hfits
    · intro p d hd
      replace hd : .output p d ∈ s.events := hd
      rw [hevents] at hd
      rcases List.mem_append.1 hd with hd | hd
      · exact hb.chunk p d hd
      · exact events_chunk hd
    · intro p
      obtain ⟨pieces, haccepted, hpopped, hremoved⟩ := hb.left p
      refine ⟨pieces, ?_, hpopped, hremoved⟩
      show arrived p ((b.accepted ++ [line]).map .note) = pieces.flatMap Prod.fst ++ queued p s.events
      rw [List.map_append, arrived_append, haccepted, hevents, queued_append, ← List.append_assoc, queued_events p line hn]
      rfl
  · cases h

theorem outputBytes_cons (e : ControlEvent) (es : List ControlEvent) : outputBytes (e :: es) = e.bytes + outputBytes es := by
  rw [outputBytes, List.map_cons, List.sum_cons]
  rfl

theorem queued_cons (p : Text) (e : ControlEvent) (es : List ControlEvent) :
    queued p (e :: es) = e.outputOf p ++ queued p es := by
  rw [queued, List.flatMap_cons]
  rfl

theorem popped_bytes (s : St) (e : ControlEvent) (es : List ControlEvent) :
    (s.popped e es).queuedOutputBytes = s.queuedOutputBytes - e.bytes := by
  cases e <;> rfl

theorem Books.Ok.pop (hb : b.Ok) (h : b.apply .pop = some b') : b'.Ok := by
  unfold Books.apply at h
  dsimp only at h
  split at h
  · cases h
    exact hb
  · rename_i e es hes
    cases h
    have hbytes := hb.bytes
    have hfits := hb.fits
    rw [hes, outputBytes_cons] at hbytes
    rw [Fits, hes, List.length_cons, List.length_nil] at hfits
    have hsame : (b.s.popped e es).queuedOutputBytes = outputBytes es := by
      rw [popped_bytes, hbytes, Nat.add_sub_cancel_left]
    refine ⟨hsame, ?_, ?_, ?_⟩
    · show Fits (b.s.popped e es) []
      unfold Fits
      rw [hsame]
      refine ⟨?_, ?_⟩
      · show es.length + 0 ≤ maxQueuedEvents
        omega
      · omega
    · intro p d hd
      refine hb.chunk p d ?_
      rw [hes]
      exact List.mem_cons_of_mem _ hd
    · intro p
      obtain ⟨pieces, haccepted, hpopped, hremoved⟩ := hb.left p
      refine ⟨pieces ++ [(e.outputOf p, true)], ?_, ?_, ?_⟩
      · show arrived p (b.accepted.map .note) = _ ++ queued p es
        rw [haccepted, hes, queued_cons, List.flatMap_append, List.append_assoc]
        simp
      · show queued p (b.popped ++ [e]) = _
        rw [queued_append, hpopped, kept_append]
        simp [queued, kept]
      · show queued p b.removed = _
        rw [hremoved, dropped_append]
        simp [dropped]

theorem Books.Ok.clear (hb : b.Ok) (h : b.apply .clear = some b') : b'.Ok := by
  cases h
  refine ⟨rfl, ⟨Nat.zero_le _, Nat.zero_le _⟩, fun _ _ h => (List.not_mem_nil h).elim, ?_⟩
  intro p
  obtain ⟨pieces, haccepted, hpopped, hremoved⟩ := hb.left p
  refine ⟨pieces ++ [(queued p b.s.events, false)], ?_, ?_, ?_⟩
  · show arrived p (b.accepted.map .note) = _ ++ queued p []
    rw [haccepted, List.flatMap_append]
    simp [queued]
  · show queued p b.popped = _
    rw [hpopped, kept_append]
    simp [kept]
  · show queued p (b.removed ++ b.s.events) = _
    rw [queued_append, hremoved, dropped_append]
    simp [dropped]

theorem outputOf_other {p q : Text} {e : ControlEvent} (he : isOutputOf q e = true) (hpq : q ≠ p) : e.outputOf p = [] := by
  cases e with
  | output r d =>
    have hr : r = q := by simpa [isOutputOf] using he
    exact if_neg (hr ▸ hpq)
  | refresh => rfl
  | exit => rfl

theorem outputOf_rest {q : Text} {e : ControlEvent} (he : ¬ isOutputOf q e = true) : e.outputOf q = [] := by
  cases e with
  | output r d => exact if_neg (by simpa [isOutputOf] using he)
  | refresh => rfl
  | exit => rfl

theorem queued_filter_output (p q : Text) (es : List ControlEvent) :
    queued p (es.filter (isOutputOf q)) = if q = p then queued p es else [] := by
  induction es with
  | nil => split_ifs <;> rfl
  | cons e es ih =>
    by_cases he : isOutputOf q e = true
    · rw [List.filter_cons_of_pos he, queued_cons, queued_cons, ih]
      split_ifs with hpq
      · rfl
      · rw [outputOf_other he hpq, List.nil_append]
    · rw [List.filter_cons_of_neg he, queued_cons, ih]
      split_ifs with hpq
      · rw [← hpq, outputOf_rest he, List.nil_append]
      · rfl

theorem queued_filter_rest (p q : Text) (es : List ControlEvent) :
    queued p (es.filter fun e => !isOutputOf q e) = if q = p then [] else queued p es := by
  induction es with
  | nil => split_ifs <;> rfl
  | cons e es ih =>
    by_cases he : isOutputOf q e = true
    · rw [List.filter_cons_of_neg (by rw [he]; exact Bool.false_ne_true), queued_cons, ih]
      split_ifs with hpq
      · rfl
      · rw [outputOf_other he hpq, List.nil_append]
    · rw [List.filter_cons_of_pos (by simpa using he), queued_cons, queued_cons, ih]
      split_ifs with hpq
      · rw [← hpq, outputOf_rest he, List.nil_append]
      · rfl

/-- the output of a pane is what is removed of it and what stays -/
theorem queued_filter (p q : Text) (es : List ControlEvent) :
    queued p es = queued p (es.filter (isOutputOf q)) ++ queued p (es.filter fun e => !isOutputOf q e) := by
  rw [queued_filter_output, queued_filter_rest]
  split_ifs
  · rw [List.append_nil]
  · rw [List.nil_append]

theorem discard_bytes (p : Text) (s : St) :
    (discardCapturedOutput p s).2.queuedOutputBytes = outputBytes (s.events.filter fun e => !isOutputOf p e) := by
  show ((s.events.filter fun e => !isOutputOf p e).map _).sum = _
  unfold outputBytes
  congr 2

theorem outputBytes_filter_le (f : ControlEvent → Bool) (es : List ControlEvent) : outputBytes (es.filter f) ≤ outputBytes es :=
  (List.filter_sublist.map ControlEvent.bytes).sum_le_sum fun _ _ => Nat.zero_le _

theorem Books.Ok.discard {q : Text} (hb : b.Ok) (h : b.apply (.discard q) = some b') : b'.Ok := by
  cases h
  have hlength := List.length_filter_le (fun e => !isOutputOf q e) b.s.events
  have hle := outputBytes_filter_le (fun e => !isOutputOf q e) b.s.events
  have hfits := hb.fits
  refine ⟨discard_bytes q b.s, ?_, ?_, ?_⟩
  · unfold Fits at hfits ⊢
    rw [discard_bytes]
    rw [hb.bytes] at hfits
    refine ⟨?_, ?_⟩
    · show (b.s.events.filter fun e => !isOutputOf q e).length + 0 ≤ _
      exact hlength.trans hfits.1
    · exact hle.trans hfits.2
  · intro p d hd
    exact hb.chunk p d (List.mem_of_mem_filter hd)
  · intro p
    obtain ⟨pieces, haccepted, hpopped, hremoved⟩ := hb.left p
    refine ⟨pieces ++ [(queued p (b.s.events.filter (isOutputOf q)), false)], ?_, ?_, ?_⟩
    · show arrived p (b.accepted.map .note) = _ ++ queued p (b.s.events.filter fun e => !isOutputOf q e)
      rw [haccepted, queued_filter p q b.s.events, List.flatMap_append, List.append_assoc]
      simp
    · show queued p b.popped = _
      rw [hpopped, kept_append]
      simp [kept]
    · show queued p (b.removed ++ b.s.events.filter (isOutputOf q)) = _
      rw [queued_append, hremoved, dropped_append]
      simp [dropped]

theorem Books.Ok.apply {op : QueueOp} (hb : b.Ok) (h : b.apply op = some b') : b'.Ok := by
  cases op with
  | ingest line => exact hb.ingest h
  | pop => exact hb.pop h
  | clear => exact hb.clear h
  | discard p => exact hb.discard h

/-! ## Every run -/

theorem Books.Ok.run {ops : List QueueOp} (hb : b.Ok) (h : b.run ops = some b') : b'.Ok := by
  induction ops generalizing b with
  | nil =>
    cases h
    exact hb
  | cons op ops ih =>
    rw [Books.run, List.foldlM_cons] at h
    obtain ⟨b₁, h₁, hrest⟩ := Option.bind_eq_some_iff.1 h
    exact ih (hb.apply h₁) hrest

/-- **The books balance after every run of successful queue operations.** -/
theorem run_books (script : List Move) (ops : List QueueOp) (b : Books) (h : (Books.init script).run ops = some b) :
    b.s.queuedOutputBytes = outputBytes b.s.events ∧ b.s.queuedOutputBytes ≤ maxQueuedOutputBytes ∧
    b.s.events.length ≤ maxQueuedEvents ∧
    (∀ p d, .output p d ∈ b.s.events → 1 ≤ d.length ∧ d.length ≤ attachmentMaxTerminalChunkBytes) ∧
    (∀ e es, b.s.events = e :: es → e.bytes ≤ b.s.queuedOutputBytes) ∧
    ∀ p, ∃ pieces : List (Bytes × Bool),
      arrived p (b.accepted.map .note) = pieces.flatMap Prod.fst ∧
      queued p b.popped ++ queued p b.s.events = kept pieces ∧
      queued p b.removed = dropped pieces := by
  have hb := (init_ok script).run h
  refine ⟨hb.bytes, hb.fits.2, hb.fits.1, hb.chunk, ?_, ?_⟩
  · intro e es hes
    rw [hb.bytes, hes, outputBytes_cons]
    exact Nat.le_add_right _ _
  · intro p
    obtain ⟨pieces, haccepted, hpopped, hremoved⟩ := hb.left p
    refine ⟨pieces ++ [(queued p b.s.events, true)], ?_, ?_, ?_⟩
    · rw [haccepted, List.flatMap_append]
      simp
    · rw [hpopped, kept_append]
      simp [kept]
    · rw [hremoved, dropped_append]
      simp [dropped]

/-- two panes: one chunk popped, the other pane's output discarded -/
theorem run_books_two : ∃ b, (Books.init []).run [.ingest (ascii "%output %1 ab\n"), .ingest (ascii "%output %2 c\n"), .pop,
    .ingest (ascii "%output %1 d\n"), .discard "%2".toList] = some b ∧ b.s.queuedOutputBytes = 1 ∧
    b.s.queuedOutputBytes = outputBytes b.s.events := by
  have hsome : ((Books.init []).run [.ingest (ascii "%output %1 ab\n"), .ingest (ascii "%output %2 c\n"), .pop,
    .ingest (ascii "%output %1 d\n"), .discard "%2".toList]).isSome = true := by decide +kernel
  obtain ⟨b, hb⟩ := Option.isSome_iff_exists.1 hsome
  refine ⟨b, hb, ?_, (run_books [] _ b hb).1⟩
  have hone : ((Books.init []).run [.ingest (ascii "%output %1 ab\n"), .ingest (ascii "%output %2 c\n"), .pop,
    .ingest (ascii "%output %1 d\n"), .discard "%2".toList]).map (fun b => b.s.queuedOutputBytes) = some 1 := by decide +kernel
  rw [hb] at hone
  exact Option.some.inj hone

end OwlMux.Tmux
