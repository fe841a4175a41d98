/-
The cutover of a hydration: which output a successful attempt covers by a snapshot, and which it leaves in the queue.

The log keeps what the adapter has read, in order: notifications and the ends of blocks. A read of a response adds the
events of the notifications it passes to the queue and drops none, so between two captures the queue and the log grow
together (`Grows`); a capture drops the output of its own pane, all of which its rows cover, and refuses output between
its rows and its metadata. The invariant behind a capture (`Covered`) survives the captures of the other panes.

Results:
- `readResponse_grows`: what a response adds to the log and the queue;
- `capturePane_covered`: after the capture of a pane the queue holds exactly the later output of it;
- `hydration_cutover`: so does the queue a successful hydration leaves, for every projected pane.
-/
import Mathlib.Tactic
import OwlMux.Tmux.Alignment

namespace OwlMux.Tmux

open OwlMux.Relay (Text byteLen)

variable {α β : Type} {s s' : St}

/-! ## Output in the log and in the queue -/

/-- the output a notification carries for a pane -/
def Entry.outputOf (p : Text) : Entry → Bytes
  | .note line =>
    match parseNotification line with
    | .ok (.output q d) => if q = p then d else []
    | _ => []
  | _ => []

/-- the output of a pane that has arrived, in order -/
def arrived (p : Text) (log : List Entry) : Bytes := log.flatMap (Entry.outputOf p)

def ControlEvent.outputOf (p : Text) : ControlEvent → Bytes
  | .output q d => if q = p then d else []
  | _ => []

/-- the output of a pane that waits in the queue, in order -/
def queued (p : Text) (events : List ControlEvent) : Bytes := events.flatMap (ControlEvent.outputOf p)

theorem arrived_append (p : Text) (a b : List Entry) : arrived p (a ++ b) = arrived p a ++ arrived p b :=
  List.flatMap_append

theorem queued_append (p : Text) (a b : List ControlEvent) : queued p (a ++ b) = queued p a ++ queued p b :=
  List.flatMap_append

theorem chunks_flatten {n : ℕ} (hn : 0 < n) (data : Bytes) : (chunks n data).flatten = data := by
  induction hlen : data.length using Nat.strong_induction_on generalizing data with
  | _ len ih =>
    rw [chunks]
    split_ifs with h
    · rcases h with rfl | h
      · rfl
      · omega
    · have hne : data ≠ [] := fun e => h (Or.inl e)
      have hpos := List.length_pos_of_ne_nil hne
      rw [List.flatten_cons, ih (data.drop n).length (by rw [List.length_drop]; omega) _ rfl, List.take_append_drop]

theorem queued_map_output (p q : Text) (cs : List Bytes) :
    queued p (cs.map (.output q)) = if q = p then cs.flatten else [] := by
  induction cs with
  | nil => simp [queued]
  | cons c cs ih =>
    simp only [queued, List.map_cons, List.flatMap_cons, ControlEvent.outputOf] at ih ⊢
    rw [ih]
    split_ifs <;> simp

/-- the events of a notification carry its bytes -/
theorem queued_events (p : Text) (line : Bytes) {n : Notice} (h : parseNotification line = .ok n) :
    queued p n.events = arrived p [.note line] := by
  simp only [arrived, List.flatMap_cons, List.flatMap_nil, List.append_nil, Entry.outputOf, h]
  cases n with
  | output q d =>
    rw [Notice.events, queued_map_output, chunks_flatten (by decide)]
  | refresh => rfl
  | exit => rfl
  | nothing => rfl

/-! ## What a read adds -/

theorem queueChunks_ok {p : Text} {cs : List Bytes} {u : Unit} (h : queueChunks p cs s = (.ok u, s')) :
    s'.events = s.events ++ cs.map (.output p) := by
  induction cs generalizing s with
  | nil =>
    cases h
    simp
  | cons c cs ih =>
    rw [queueChunks, bind_apply] at h
    rcases hc : chargeOutput c.length s with ⟨o, t⟩
    rw [hc] at h
    cases o with
    | error e => cases h
    | waiting => cases h
    | ok u =>
      have ht : t.events = s.events := by
        simp only [chargeOutput] at hc
        split_ifs at hc
        · cases hc
        · rw [Prod.mk.injEq] at hc
          rw [← hc.2]
      dsimp only at h
      rw [bind_apply, queueEvent_eq] at h
      split_ifs at h with hfit
      · have := ih h
        rw [this, ht]
        simp
      · cases h

theorem queueNotice_ok {n : Notice} {u : Unit} (h : queueNotice n s = (.ok u, s')) : s'.events = s.events ++ n.events := by
  cases n with
  | output p d => exact queueChunks_ok h
  | refresh =>
    rw [queueNotice, queueEvent_eq] at h
    split_ifs at h
    · cases h
      rfl
    · cases h
  | exit =>
    rw [queueNotice, queueEvent_eq] at h
    split_ifs at h
    · cases h
      rfl
    · cases h
  | nothing =>
    cases h
    simp [Notice.events]

/-- an accepted notification adds its events to the queue and changes nothing else -/
theorem ingest_ok {line : Bytes} (hb : stripHead beginMark line = none) {u : Unit} (h : ingestNotification line s = (.ok u, s')) :
    ∃ es n, s' = { s with events := s.events ++ es, queuedOutputBytes := n } ∧ ∀ p, queued p es = arrived p [.note line] := by
  obtain ⟨-, es, q, hq⟩ := ingest_quiet hb s
  rw [ingestNotification_eq hb, bind_apply] at h
  rw [ingestNotification_eq hb, bind_apply] at hq
  cases hp : parseNotification line with
  | error e =>
    rw [hp] at h
    cases h
  | ok n =>
    rw [hp] at h hq
    have hev := queueNotice_ok h
    have hs : s' = { s with events := es, queuedOutputBytes := q } := by
      have : (queueNotice n s).2 = s' := by
        show (queueNotice n s).2 = s'
        rw [show queueNotice n s = (.ok u, s') from h]
      rw [← this]
      exact hq
    refine ⟨n.events, q, ?_, fun p => queued_events p line hp⟩
    rw [hs] at hev ⊢
    rw [← show es = s.events ++ n.events from hev]

/-- the log and the queue have grown together; the blocks read are those of allowed commands -/
structure Grows (allow : Command → Prop) (s s' : St) : Prop where
  grown : ∃ new es, s'.log = s.log ++ new ∧ s'.events = s.events ++ es ∧ (∀ p, queued p es = arrived p new) ∧
    .attempt ∉ new ∧ ∀ c rows ok, .closed c rows ok ∈ new → allow c

theorem Grows.refl (allow : Command → Prop) (s : St) : Grows allow s s :=
  ⟨[], [], by simp, by simp, fun _ => rfl, by simp, by simp⟩

theorem Grows.trans {allow : Command → Prop} {t : St} (h : Grows allow s s') (k : Grows allow s' t) : Grows allow s t := by
  obtain ⟨n₁, e₁, hl₁, he₁, hq₁, ha₁, hc₁⟩ := h.grown
  obtain ⟨n₂, e₂, hl₂, he₂, hq₂, ha₂, hc₂⟩ := k.grown
  refine ⟨n₁ ++ n₂, e₁ ++ e₂, by rw [hl₂, hl₁, List.append_assoc], by rw [he₂, he₁, List.append_assoc], fun p => ?_, ?_, ?_⟩
  · rw [queued_append, arrived_append, hq₁, hq₂]
  · simp [ha₁, ha₂]
  · intro c rows ok h
    rcases List.mem_append.1 h with h | h
    · exact hc₁ c rows ok h
    · exact hc₂ c rows ok h

/-- only notifications have been read -/
def Notes (s s' : St) : Prop := Grows (fun _ => False) s s'

/-- **A response.** It adds the notifications before its block, with their events, and the end of its block. -/
theorem readResponseFrom_grows {c : Command} {cs : List Command} {lines : List (List Command)} (max fuel : ℕ) (r : Reading)
    (h : Phase c cs lines r s) {rows : List Bytes} (hr : readResponseFrom max fuel r s = (.ok rows, s')) :
    ∃ t, Notes s t ∧ s'.log = t.log ++ [.closed c rows true] ∧ s'.events = t.events := by
  induction fuel generalizing r s with
  | zero => cases hr
  | succ fuel ih =>
    have hn := nextLine_cases true s
    rcases hl : nextLine true s with ⟨o, s₁⟩
    rw [hl] at hn
    cases o with
    | error e =>
      rw [readResponseFrom, bind_of_error hl] at hr
      cases hr
    | waiting =>
      rw [readResponseFrom, bind_of_waiting hl] at hr
      cases hr
    | ok line =>
      cases hb : r.budget.observe line with
      | error e =>
        rw [readResponseFrom, bind_of_ok hl, hb, bind_of_error (lift_error _ _)] at hr
        cases hr
      | ok b =>
        rw [readResponseFrom_line hl hb] at hr
        cases hn with
        | stop hstop => cases hstop
        | note n ms hw =>
          cases h with
          | inside a done todo _ _ _ hw' => simp [hw, Answer.wire] at hw'
          | before hm hres _ hp =>
            rw [observeLine_note max (by exact hm) n.plain, bind_apply] at hr
            rcases hi : ingestNotification n.line { s with script := ms, log := s.log ++ [.note n.line] } with ⟨o, t⟩
            rw [hi] at hr
            cases o with
            | error e => cases hr
            | waiting => cases hr
            | ok u =>
              obtain ⟨es, q, rfl, hq⟩ := ingest_ok n.plain hi
              change readResponseFrom max fuel { r with budget := b } _ = _ at hr
              obtain ⟨t, ht, hlog, hev⟩ := ih _ (by exact .before hm hres hw hp) hr
              exact ⟨t, Grows.trans (by exact ⟨[.note n.line], es, rfl, rfl, hq, by simp, by simp⟩) ht, hlog, hev⟩
        | opening a ms c' cs' lines' hw hp' =>
          cases h with
          | inside a done todo _ _ _ hw' => simp [hw, Answer.wire] at hw'
          | before hm hres _ hp =>
            rw [hp] at hp'
            obtain ⟨⟨rfl, rfl⟩, rfl⟩ : (c = c' ∧ cs = cs') ∧ lines = lines' := by simpa using hp'
            rw [observeLine_opening max (by exact hm) a.opens] at hr
            change readResponseFrom max fuel _ _ = _ at hr
            obtain ⟨t, ht, hlog, hev⟩ := ih _ (by exact .inside a [] a.rows rfl rfl hres rfl rfl) hr
            exact ⟨t, Grows.trans (by exact ⟨[], [], by simp, by simp, fun _ => rfl, by simp, by simp⟩) ht, hlog, hev⟩
        | row l w ms hw =>
          cases h with
          | before _ _ hw' => simp [hw] at hw'
          | inside a done todo hm ha hres hw' hp =>
            rw [hw] at hw'
            cases todo with
            | nil =>
              obtain ⟨rfl, rfl⟩ : l = ⟨a.closing, some (c, a.rows.map stripNewline, a.ok)⟩ ∧ w = [] := by
                simpa [Answer.wire] using hw'
              cases hok : a.ok with
              | true =>
                have hend : parseMarker a.closing endMark = .ok (some a.marker) := by
                  have := a.closes
                  rwa [hok, if_pos rfl] at this
                rw [observeLine_end max (by exact hm) hend] at hr
                cases hr
                refine ⟨s, Grows.refl _ s, ?_, rfl⟩
                rw [ha, List.append_nil]
                simp [hres, hok]
              | false =>
                rw [observeLine_refusal (by exact hm) hok] at hr
                cases hr
            | cons row todo =>
              obtain ⟨rfl, rfl⟩ : l = ⟨row, none⟩ ∧ w = a.wire c todo := by simpa [Answer.wire] using hw'
              have hopen : ¬ Closes a.marker row := a.rowsOpen row (by rw [ha]; simp)
              rcases observeLine_inside max (r := { r with budget := b }) (a := a) (by exact hm) hopen
                  { s with wire := a.wire c todo, script := ms, log := s.log ++ [] } with ⟨e, he, hobs⟩ | ⟨size, hobs⟩
              · simp only [Option.toList, List.map_nil] at hr
                rw [hobs] at hr
                cases hr
              · simp only [Option.toList, List.map_nil] at hr
                rw [hobs] at hr
                change readResponseFrom max fuel _ _ = _ at hr
                obtain ⟨t, ht, hlog, hev⟩ := ih _
                  (by exact .inside a (done ++ [row]) todo hm (by simp [ha]) (by simp [hres]) rfl hp) hr
                exact ⟨t, Grows.trans (by exact ⟨[], [], by simp, by simp, fun _ => rfl, by simp, by simp⟩) ht, hlog, hev⟩

/-- **`read_response_with_limit`.** The block of `c` is read; behind the notifications its end is logged. -/
theorem readResponse_grows {c : Command} {cs : List Command} {lines : List (List Command)} {max : ℕ} (hw : s.wire = [])
    (hp : s.pending = (c :: cs) :: lines) {rows : List Bytes} (hr : readResponse c max s = (.ok rows, s')) :
    s'.wire = [] ∧ (s'.pending = if cs.isEmpty then lines else cs :: lines) ∧
      ∃ t, Notes s t ∧ s'.log = t.log ++ [.closed c rows true] ∧ s'.events = t.events := by
  unfold readResponse at hr
  dsimp only at hr
  rcases hx : readResponseFrom max (maxResponseRecords + 1) .init s with ⟨o, t⟩
  rw [hx, Prod.mk.injEq] at hr
  obtain ⟨rfl, rfl⟩ := hr
  have hread := (readResponseFrom_spec max (maxResponseRecords + 1) .init s (.before rfl rfl hw hp)).1
  rw [hx] at hread
  obtain ⟨u, hu, hlog, hev⟩ := readResponseFrom_grows max (maxResponseRecords + 1) .init (.before rfl rfl hw hp) hx
  cases hread with
  | answered hw hp => exact ⟨hw, hp, u, hu, hlog, hev⟩
  | stopped hr => cases hr

theorem sendCommand_ok {cs : List Command} {u : Unit} (h : sendCommand cs s = (.ok u, s')) :
    s'.wire = s.wire ∧ s'.pending = s.pending ++ [cs] ∧ s'.log = s.log ∧ s'.events = s.events := by
  unfold sendCommand at h
  dsimp only at h
  split at h
  · cases h
  · split_ifs at h
    · cases h
    · cases h
      exact ⟨rfl, rfl, rfl, rfl⟩

/-! ## Operations that succeed -/

/-- from an idle adapter, a success leaves it idle, with log and queue grown together -/
def Does (allow : Command → Prop) (x : Io α) : Prop := ∀ s s' a, Idle s → x s = (.ok a, s') → Idle s' ∧ Grows allow s s'

theorem ok_of_bind {x : Io α} {f : α → Io β} {b : β} (h : (x >>= f) s = (.ok b, s')) :
    ∃ a t, x s = (.ok a, t) ∧ f a t = (.ok b, s') := by
  rw [bind_apply] at h
  rcases hx : x s with ⟨o, t⟩
  rw [hx] at h
  cases o with
  | ok a => exact ⟨a, t, rfl, h⟩
  | error e => cases h
  | waiting => cases h

theorem ok_of_lift {x : Parsed α} {a : α} (h : Io.lift x s = (.ok a, s')) : x = .ok a ∧ s = s' := by
  cases x with
  | ok b =>
    cases h
    exact ⟨rfl, rfl⟩
  | error e => cases h

theorem Does.seq {allow : Command → Prop} {x : Io α} {f : α → Io β} (hx : Does allow x) (hf : ∀ a, Does allow (f a)) :
    Does allow (x >>= f) := by
  intro s s' b hi h
  obtain ⟨a, t, h1, h2⟩ := ok_of_bind h
  obtain ⟨hi₁, r₁⟩ := hx s t a hi h1
  obtain ⟨hi₂, r₂⟩ := hf a t s' b hi₁ h2
  exact ⟨hi₂, r₁.trans r₂⟩

theorem does_lift {allow : Command → Prop} (x : Parsed α) : Does allow (Io.lift x) := by
  intro s s' a hi h
  obtain ⟨-, rfl⟩ := ok_of_lift h
  exact ⟨hi, Grows.refl _ _⟩

theorem does_pure {allow : Command → Prop} (a : α) : Does allow (Io.pure a) := by
  intro s s' b hi h
  cases h
  exact ⟨hi, Grows.refl _ _⟩

theorem Grows.mono {p q : Command → Prop} (h : Grows p s s') (hpq : ∀ c, p c → q c) : Grows q s s' := by
  obtain ⟨new, es, hl, he, hq, ha, hc⟩ := h.grown
  exact ⟨new, es, hl, he, hq, ha, fun c rows ok hm => hpq c (hc c rows ok hm)⟩

/-- the end of a block, behind the notifications before it -/
theorem Grows.closed {allow : Command → Prop} {t : St} {c : Command} {rows : List Bytes} (h : Notes s t) (hc : allow c)
    (hl : s'.log = t.log ++ [.closed c rows true]) (he : s'.events = t.events) : Grows allow s s' := by
  refine (h.mono fun _ hf => hf.elim).trans ⟨[.closed c rows true], [], hl, by rw [he, List.append_nil], fun p => ?_, by simp, ?_⟩
  · rfl
  · intro c' rows' ok' hm
    cases List.mem_singleton.1 hm
    exact hc

theorem does_command {allow : Command → Prop} {c : Command} (hc : allow c) (max : ℕ) : Does allow (command c max) := by
  intro s s' rows hi h
  obtain ⟨u, t, h1, h2⟩ := ok_of_bind h
  obtain ⟨hw, hp, hl, he⟩ := sendCommand_ok h1
  rw [hi.1] at hw
  rw [hi.2] at hp
  obtain ⟨hw', hp', v, hv, hlog, hev⟩ := readResponse_grows hw hp h2
  have hst : Grows allow s t := ⟨[], [], by rw [hl, List.append_nil], by rw [he, List.append_nil], fun _ => rfl, by simp, by simp⟩
  exact ⟨⟨hw', hp'⟩, hst.trans (.closed hv hc hlog hev)⟩

/-- the commands other than a capture -/
def notCapture (c : Command) : Prop := ∀ p, c ≠ .capture p

theorem does_observeWindows (session : Text) : Does notCapture (observeWindows session) :=
  (does_lift _).seq fun _ => (does_command (by simp [notCapture]) _).seq fun _ => does_lift _

theorem does_observeWindow (session : Text) (created : ℤ) : Does notCapture (observeWindow session created) :=
  (does_lift _).seq fun _ => (does_command (by simp [notCapture]) _).seq fun _ =>
    (does_lift _).seq fun _ => (does_command (by simp [notCapture]) _).seq fun _ =>
    (does_lift _).seq fun _ => does_pure _

theorem does_observePanes (window : WindowProjection) : Does notCapture (observePanes window) :=
  (does_command (by simp [notCapture]) _).seq fun _ => does_lift _

theorem does_observePaneLabels (panes : List PaneProjection) : Does notCapture (observePaneLabels panes) := by
  induction panes with
  | nil => exact does_pure _
  | cons pane panes ih =>
    exact (does_command (by simp [notCapture]) _).seq fun _ => (does_lift _).seq fun _ =>
      (does_command (by simp [notCapture]) _).seq fun _ => (does_lift _).seq fun _ =>
      ih.seq fun _ => does_pure _

theorem does_forPanes {c : Text → Command} (hc : ∀ p, notCapture (c p)) (panes : List PaneProjection) :
    Does notCapture (forPanes c panes) := by
  induction panes with
  | nil => exact does_pure _
  | cons pane panes ih => exact (does_command (hc _) _).seq fun _ => ih

theorem does_revalidate (session : Text) (created : ℤ) (window : WindowProjection) (panes : List PaneProjection) :
    Does notCapture (revalidateProjection session created window panes) :=
  (does_observeWindows _).seq fun _ => (does_observeWindow _ _).seq fun _ =>
    (does_lift _).seq fun _ => (does_observePanes _).seq fun _ => does_lift _

/-! ## Captures -/

/-- behind its capture the queue holds exactly what has arrived of the pane since: `base` ends where the attempt begins,
`rows` were captured, and the metadata followed with no output of the pane between -/
structure Covered (base : List Entry) (p : Text) (rows : List Bytes) (s : St) : Prop where
  covered : ∃ before between metadata after,
    s.log = base ++ before ++ .closed (.capture p) rows true :: between ++ .closed (.displayPane p) metadata true :: after ∧
    (.attempt ∉ before ∧ .attempt ∉ between ∧ .attempt ∉ after) ∧
    (∀ rows' ok, .closed (.capture p) rows' ok ∉ between ∧ .closed (.capture p) rows' ok ∉ after) ∧
    arrived p between = [] ∧ queued p s.events = arrived p after

theorem Covered.grows {base : List Entry} {p : Text} {rows : List Bytes} (h : Covered base p rows s)
    (k : Grows (fun c => c ≠ .capture p) s s') : Covered base p rows s' := by
  obtain ⟨before, between, metadata, after, hl, ⟨a1, a2, a3⟩, hc, hb, hq⟩ := h.covered
  obtain ⟨new, es, hnl, hne, hnq, hna, hnc⟩ := k.grown
  refine ⟨before, between, metadata, after ++ new, ?_, ⟨a1, a2, ?_⟩, fun rows' ok => ⟨(hc rows' ok).1, ?_⟩, hb, ?_⟩
  · rw [hnl, hl]
    simp
  · simp [a3, hna]
  · intro hm
    rcases List.mem_append.1 hm with hm | hm
    · exact (hc rows' ok).2 hm
    · exact hnc _ _ _ hm rfl
  · rw [hne, queued_append, arrived_append, hq, hnq]

theorem queued_filter_self (p : Text) (es : List ControlEvent) : queued p (es.filter fun e => !isOutputOf p e) = [] := by
  induction es with
  | nil => rfl
  | cons e es ih =>
    rw [List.filter_cons]
    split_ifs with h
    · have he : e.outputOf p = [] := by
        cases e with
        | output q d =>
          have : q ≠ p := by simpa [isOutputOf] using h
          exact if_neg this
        | refresh => rfl
        | exit => rfl
      show e.outputOf p ++ _ = _
      rw [he, List.nil_append]
      exact ih
    · exact ih

theorem queued_filter_of_ne {p q : Text} (h : q ≠ p) (es : List ControlEvent) :
    queued p (es.filter fun e => !isOutputOf q e) = queued p es := by
  induction es with
  | nil => rfl
  | cons e es ih =>
    rw [List.filter_cons]
    split_ifs with he
    · show e.outputOf p ++ queued p _ = e.outputOf p ++ queued p es
      rw [ih]
    · have hz : e.outputOf p = [] := by
        cases e with
        | output r d =>
          have hr : r = q := by simpa [isOutputOf] using he
          exact if_neg (by rw [hr]; exact h)
        | refresh => rfl
        | exit => rfl
      rw [ih]
      show _ = e.outputOf p ++ _
      rw [hz]
      rfl

/-- no event is output of the pane, so none of its bytes is queued -/
theorem queued_eq_nil {p : Text} {es : List ControlEvent} (h : es.any (isOutputOf p) = false) : queued p es = [] := by
  have hf : es.filter (fun e => !isOutputOf p e) = es := by
    rw [List.filter_eq_self]
    intro e he
    rw [List.any_eq_false] at h
    simpa using h e he
  rw [← hf]
  exact queued_filter_self p es

/-- **The capture line of a pane.** Its rows and its metadata, with no output of the pane between. -/
theorem captureBarrier_ok {p : Text} (hi : Idle s) {metadata : Bytes} {rows : List Bytes}
    (h : captureBarrier p s = (.ok (metadata, rows), s')) :
    Idle s' ∧ ∃ t between info, Notes s t ∧
      s'.log = t.log ++ .closed (.capture p) rows true :: between ++ [.closed (.displayPane p) info true] ∧
      .attempt ∉ between ∧ (∀ c rows' ok, .closed c rows' ok ∉ between) ∧ arrived p between = [] ∧
      Grows (fun c => c = .capture p ∨ c = .displayPane p) s s' := by
  obtain ⟨u, s₁, h1, r1⟩ := ok_of_bind h
  obtain ⟨hw, hp, hl, he⟩ := sendCommand_ok h1
  rw [hi.1] at hw
  rw [hi.2] at hp
  have hs₁ : Notes s s₁ := ⟨[], [], by rw [hl, List.append_nil], by rw [he, List.append_nil], fun _ => rfl, by simp, by simp⟩
  obtain ⟨lines, s₂, h2, r2⟩ := ok_of_bind r1
  obtain ⟨hw₂, hp₂, t, ht, hl₂, he₂⟩ := readResponse_grows hw hp h2
  obtain ⟨n, s₃, h3, r3⟩ := ok_of_bind r2
  cases h3
  obtain ⟨info, s₄, h4, r4⟩ := ok_of_bind r3
  obtain ⟨hw₄, hp₄, v, hv, hl₄, he₄⟩ := readResponse_grows hw₂ hp₂ h4
  obtain ⟨u, s₅, h5, r5⟩ := ok_of_bind r4
  obtain ⟨l, s₆, h6, r6⟩ := ok_of_bind r5
  obtain ⟨-, rfl⟩ := ok_of_lift h6
  cases r6
  -- the check on the events queued behind the rows
  unfold refuseOutputSince at h5
  split_ifs at h5 with hout
  · cases h5
  obtain rfl : s₄ = s' := congrArg Prod.snd h5
  obtain ⟨new, es, hnl, hne, hnq, hna, hnc⟩ := hv.grown
  have hes : s₄.events.drop s₂.events.length = es := by rw [he₄, hne, List.drop_left]
  rw [hes] at hout
  have hbetween : arrived p new = [] := by
    rw [← hnq p]
    exact queued_eq_nil (by simpa using hout)
  refine ⟨⟨hw₄, hp₄⟩, t, new, info, hs₁.trans ht, ?_, hna, fun c rows' ok hm => hnc c rows' ok hm, hbetween, ?_⟩
  · rw [hl₄, hnl, hl₂]
    simp
  · have g₁ : Grows (fun c => c = .capture p ∨ c = .displayPane p) s₁ s₂ := .closed ht (Or.inl rfl) hl₂ he₂
    have g₂ : Grows (fun c => c = .capture p ∨ c = .displayPane p) s₂ s₄ := .closed hv (Or.inr rfl) hl₄ he₄
    exact ((hs₁.mono fun _ hf => hf.elim).trans g₁).trans g₂

/-- **One pane.** It is covered by its snapshot, and what was covered of another pane stays covered. -/
theorem capturePane_covered {window : WindowProjection} {pane pane' : PaneProjection} {total : ℕ} {snapshot : PaneSnapshot}
    (hi : Idle s) (h : capturePane window pane total s = (.ok (pane', snapshot), s')) {base new : List Entry}
    (hbase : s.log = base ++ new) (hnew : .attempt ∉ new) :
    Idle s' ∧ pane'.paneId = pane.paneId ∧ (∃ new', s'.log = base ++ new' ∧ .attempt ∉ new') ∧
      (∃ rows, snapshot.paneId = pane'.paneId ∧ captureLines rows pane' = .ok snapshot.content ∧
        Covered base pane'.paneId rows s') ∧
      ∀ q rows, q ≠ pane.paneId → Covered base q rows s → Covered base q rows s' := by
  obtain ⟨⟨metadata, rows⟩, s₁, h1, r1⟩ := ok_of_bind h
  obtain ⟨hi₁, t, between, info, ht, hl, hna, hnc, hb, hg⟩ := captureBarrier_ok hi h1
  obtain ⟨final, s₂, h2, r2⟩ := ok_of_bind r1
  obtain ⟨-, rfl⟩ := ok_of_lift h2
  obtain ⟨u, s₃, h3, r3⟩ := ok_of_bind r2
  obtain ⟨-, rfl⟩ := ok_of_lift h3
  obtain ⟨content, s₄, h4, r4⟩ := ok_of_bind r3
  obtain ⟨hcontent, rfl⟩ := ok_of_lift h4
  obtain ⟨u, s₅, h5, r5⟩ := ok_of_bind r4
  obtain ⟨-, rfl⟩ := ok_of_lift h5
  obtain ⟨u, s₆, h6, r6⟩ := ok_of_bind r5
  cases h6
  cases r6
  obtain ⟨tn, te, htl, hte, htq, hta, htc⟩ := ht.grown
  obtain ⟨gn, ge, hgl, hge, hgq, hga, hgc⟩ := hg.grown
  refine ⟨hi₁, rfl, ⟨new ++ gn, by rw [show _ = _ from hgl, hbase, List.append_assoc], by simp [hnew, hga]⟩,
    ⟨rows, rfl, hcontent, ⟨new ++ tn, between, info, [], ?_, ⟨by simp [hnew, hta], hna, by simp⟩, fun rows' ok =>
      ⟨hnc _ rows' ok, by simp⟩, hb, ?_⟩⟩, fun q rows' hq hcov => ?_⟩
  · show s₁.log = _
    rw [hl, htl, hbase]
    simp
  · exact queued_filter_self _ _
  · have hcov' : Covered base q rows' s₁ := hcov.grows (hg.mono fun c hc => by
      rintro rfl
      rcases hc with hc | hc
      · exact hq (Command.capture.inj hc)
      · cases hc)
    obtain ⟨b, bt, m, a, k1, k2, k3, k4, k5⟩ := hcov'.covered
    exact ⟨b, bt, m, a, k1, k2, k3, k4, (queued_filter_of_ne (Ne.symm hq) _).trans k5⟩

/-- **All panes.** Every captured pane is covered by its snapshot. -/
theorem capturePanes_covered {window : WindowProjection} {panes panes' : List PaneProjection} {total : ℕ}
    {snapshots : List PaneSnapshot} (hi : Idle s) (hnd : (panes.map PaneProjection.paneId).Nodup)
    (h : capturePanes window panes total s = (.ok (panes', snapshots), s')) {base new : List Entry}
    (hbase : s.log = base ++ new) (hnew : .attempt ∉ new) :
    Idle s' ∧
      (∀ pane ∈ panes', ∃ rows, ∃ snapshot ∈ snapshots, snapshot.paneId = pane.paneId ∧
        captureLines rows pane = .ok snapshot.content ∧ Covered base pane.paneId rows s') ∧
      ∀ q rows, q ∉ panes.map PaneProjection.paneId → Covered base q rows s → Covered base q rows s' := by
  induction panes generalizing s total panes' snapshots new with
  | nil =>
    cases h
    exact ⟨hi, by simp, fun q rows _ hc => hc⟩
  | cons pane panes ih =>
    obtain ⟨⟨pane₁, snapshot₁⟩, s₁, h1, h⟩ := ok_of_bind h
    obtain ⟨⟨ps, snaps⟩, s₂, h2, h⟩ := ok_of_bind h
    cases h
    obtain ⟨hi₁, hid, ⟨new₁, hbase₁, hnew₁⟩, ⟨rows, hsid, hcontent, hcov⟩, hkeep⟩ := capturePane_covered hi h1 hbase hnew
    rw [List.map_cons, List.nodup_cons] at hnd
    obtain ⟨hi₂, hall, hkeep₂⟩ := ih hi₁ hnd.2 h2 hbase₁ hnew₁
    refine ⟨hi₂, fun p hp => ?_, fun q rows hq hc => ?_⟩
    · rcases List.mem_cons.1 hp with rfl | hp
      · exact ⟨rows, snapshot₁, List.mem_cons_self, hsid, hcontent, hkeep₂ _ _ (by rw [hid]; exact hnd.1) hcov⟩
      · obtain ⟨rows', snap, hmem, k1, k2, k3⟩ := hall p hp
        exact ⟨rows', snap, List.mem_cons_of_mem _ hmem, k1, k2, k3⟩
    · rw [List.map_cons, List.mem_cons, not_or] at hq
      exact hkeep₂ q rows hq.2 (hkeep q rows hq.1 hc)

/-! ## A whole hydration -/

theorem parsePaneList_nodup {window : WindowProjection} {rows : List Bytes} {seen panes : List PaneProjection}
    (hs : (seen.map PaneProjection.paneId).Nodup) (h : parsePaneList window seen rows = .ok panes) :
    (panes.map PaneProjection.paneId).Nodup := by
  induction rows generalizing seen with
  | nil =>
    cases h
    exact hs
  | cons row rows ih =>
    obtain ⟨pane, -, h⟩ := parsed_bind.1 h
    obtain ⟨u, hu, h⟩ := parsed_bind.1 h
    have hnew : pane.paneId ∉ seen.map PaneProjection.paneId := by
      have := require_ok.1 hu
      simpa using this
    refine ih ?_ h
    rw [List.map_append, List.nodup_append]
    refine ⟨hs, by simp, ?_⟩
    simp only [List.map_cons, List.map_nil, List.mem_singleton, forall_eq]
    rintro a ha rfl
    exact hnew ha

theorem parsePaneRows_nodup {window : WindowProjection} {rows : List Bytes} {panes : List PaneProjection}
    (h : parsePaneRows rows window = .ok panes) : (panes.map PaneProjection.paneId).Nodup := by
  obtain ⟨u, -, h⟩ := parsed_bind.1 h
  obtain ⟨ps, hps, h⟩ := parsed_bind.1 h
  obtain ⟨u, -, h⟩ := parsed_bind.1 h
  obtain ⟨u, -, h⟩ := parsed_bind.1 h
  cases h
  exact parsePaneList_nodup (by simp) hps

theorem observePaneLabels_ids {panes panes' : List PaneProjection} (h : observePaneLabels panes s = (.ok panes', s')) :
    panes'.map PaneProjection.paneId = panes.map PaneProjection.paneId := by
  induction panes generalizing s panes' with
  | nil =>
    cases h
    rfl
  | cons pane panes ih =>
    obtain ⟨_, s₁, -, h⟩ := ok_of_bind h
    obtain ⟨_, s₂, -, h⟩ := ok_of_bind h
    obtain ⟨_, s₃, -, h⟩ := ok_of_bind h
    obtain ⟨_, s₄, -, h⟩ := ok_of_bind h
    obtain ⟨rest, s₅, h5, h⟩ := ok_of_bind h
    cases h
    rw [List.map_cons, List.map_cons, ih h5]

theorem Grows.base {allow : Command → Prop} (h : Grows allow s s') {base new : List Entry} (hb : s.log = base ++ new)
    (hn : .attempt ∉ new) : ∃ new', s'.log = base ++ new' ∧ .attempt ∉ new' := by
  obtain ⟨n, -, hl, -, -, ha, -⟩ := h.grown
  exact ⟨new ++ n, by rw [hl, hb, List.append_assoc], by simp [hn, ha]⟩

/-- what a successful attempt leaves -/
def Cutover (base : List Entry) (w : WorkspaceProjection) (s : St) : Prop :=
  (∀ e ∈ s.events, e ≠ .refresh ∧ e ≠ .exit) ∧
    ∀ pane ∈ w.panes, ∃ rows, ∃ snapshot ∈ w.snapshots, snapshot.paneId = pane.paneId ∧
      captureLines rows pane = .ok snapshot.content ∧ Covered base pane.paneId rows s

theorem requireLiveCutover_ok {u : Unit} (h : requireLiveCutover s = (.ok u, s')) :
    s' = s ∧ ∀ e ∈ s.events, e ≠ .refresh ∧ e ≠ .exit := by
  unfold requireLiveCutover at h
  split_ifs at h with h1 h2
  · cases h
  · cases h
  · cases h
    refine ⟨rfl, fun e he => ⟨?_, ?_⟩⟩
    · rintro rfl
      exact h2 (by simpa using he)
    · rintro rfl
      exact h1 (by simpa using he)

/-- **One attempt.** -/
theorem hydrateOnce_cutover {session : Text} {created : ℤ} {w : WorkspaceProjection} (hi : Idle s)
    (h : hydrateOnce session created s = (.ok w, s')) {base new : List Entry} (hbase : s.log = base ++ new)
    (hnew : .attempt ∉ new) : Cutover base w s' := by
  obtain ⟨windows, s₁, h1, r1⟩ := ok_of_bind h
  obtain ⟨i₁, g₁⟩ := does_observeWindows session _ _ _ hi h1
  obtain ⟨window, s₂, h2, r2⟩ := ok_of_bind r1
  obtain ⟨i₂, g₂⟩ := does_observeWindow session created _ _ _ i₁ h2
  obtain ⟨u, s₃, h3, r3⟩ := ok_of_bind r2
  obtain ⟨-, rfl⟩ := ok_of_lift h3
  obtain ⟨panes, s₄, h4, r4⟩ := ok_of_bind r3
  obtain ⟨i₄, g₄⟩ := does_observePanes window _ _ _ i₂ h4
  have hnodup : (panes.map PaneProjection.paneId).Nodup := by
    obtain ⟨rows, t, -, hrows⟩ := ok_of_bind h4
    exact parsePaneRows_nodup (ok_of_lift hrows).1
  obtain ⟨labelled, s₅, h5, r5⟩ := ok_of_bind r4
  obtain ⟨i₅, g₅⟩ := does_observePaneLabels panes _ _ _ i₄ h5
  obtain ⟨u, s₆, h6, r6⟩ := ok_of_bind r5
  obtain ⟨i₆, g₆⟩ := does_forPanes (by simp [notCapture]) labelled _ _ _ i₅ h6
  obtain ⟨u, s₇, h7, r7⟩ := ok_of_bind r6
  -- the queue is emptied here, the log is not touched
  obtain ⟨es, n, hstable⟩ := stableFrom_queue false s₆.events s₆
  have hs₇ : s₇ = { s₆ with events := es, queuedOutputBytes := n } := by
    rw [← hstable, show stableFrom false s₆.events s₆ = _ from h7]
  have i₇ : Idle s₇ := by rw [hs₇]; exact i₆
  obtain ⟨u, s₈, h8, r8⟩ := ok_of_bind r7
  obtain ⟨i₈, g₈⟩ := does_forPanes (by simp [notCapture]) labelled _ _ _ i₇ h8
  obtain ⟨⟨captured, snapshots⟩, s₉, h9, r9⟩ := ok_of_bind r8
  obtain ⟨new₆, hb₆, hn₆⟩ := ((g₁.trans g₂).trans ((g₄.trans g₅).trans g₆)).base hbase hnew
  have hb₇ : s₇.log = base ++ new₆ := by rw [hs₇]; exact hb₆
  obtain ⟨new₈, hb₈, hn₈⟩ := g₈.base hb₇ hn₆
  obtain ⟨i₉, hall, -⟩ := capturePanes_covered i₈ (by rwa [observePaneLabels_ids h5]) h9 hb₈ hn₈
  obtain ⟨u, s₁₀, h10, r10⟩ := ok_of_bind r9
  obtain ⟨i₁₀, g₁₀⟩ := does_revalidate session created window captured _ _ _ i₉ h10
  obtain ⟨u, s₁₁, h11, r11⟩ := ok_of_bind r10
  obtain ⟨rfl, hlive⟩ := requireLiveCutover_ok h11
  cases r11
  refine ⟨hlive, fun pane hpane => ?_⟩
  obtain ⟨rows, snap, hmem, k1, k2, k3⟩ := hall pane hpane
  exact ⟨rows, snap, hmem, k1, k2, k3.grows (g₁₀.mono fun c hc => hc _)⟩

theorem hydrateFrom_cutover {session : Text} {created : ℤ} {w : WorkspaceProjection} (attempts : ℕ) (hi : Idle s)
    (hc : Clean s) (h : hydrateFrom session created attempts s = (.ok w, s')) :
    ∃ base, base.getLast? = some .attempt ∧ Cutover base w s' := by
  induction attempts generalizing s with
  | zero => cases h
  | succ attempts ih =>
    obtain ⟨k1, k2⟩ := (keeps_beginAttempt.seq fun _ => keeps_hydrateOnce session created) s hi hc
    unfold hydrateFrom at h
    rcases hx : (beginAttempt >>= fun _ => hydrateOnce session created) s with ⟨o, t⟩
    rw [hx] at h k1 k2
    cases o with
    | ok w' =>
      cases h
      obtain ⟨u, s₁, h1, h2⟩ := ok_of_bind hx
      cases h1
      exact ⟨s.log ++ [.attempt], by simp,
        hydrateOnce_cutover (by exact hi) h2 (List.append_nil (s.log ++ [Entry.attempt])).symm List.not_mem_nil⟩
    | waiting => cases h
    | error e =>
      cases e with
      | changed => exact ih (k2 rfl) k1 h
      | _ => cases h

/-- **Hydration cutover.** If `hydrate` succeeds, whatever the target interleaves: the queue holds no refresh and no exit;
and for every projected pane, in the last attempt, its snapshot is built from the rows of its capture, no output of it
arrived between these rows and its metadata, and its queued output is exactly, in order, what has arrived since the end of
its capture. -/
theorem hydration_cutover (session : Text) (created : ℤ) (s s' : St) (w : WorkspaceProjection) (hi : Idle s) (hc : Clean s)
    (h : hydrate session created s = (.ok w, s')) :
    (∀ e ∈ s'.events, e ≠ .refresh ∧ e ≠ .exit) ∧
      ∀ pane ∈ w.panes, ∃ rows, ∃ snapshot ∈ w.snapshots, snapshot.paneId = pane.paneId ∧
        captureLines rows pane = .ok snapshot.content ∧
        ∃ base before between metadata after, base.getLast? = some .attempt ∧
          s'.log = base ++ before ++ .closed (.capture pane.paneId) rows true :: between ++
            .closed (.displayPane pane.paneId) metadata true :: after ∧
          (.attempt ∉ before ∧ .attempt ∉ between ∧ .attempt ∉ after) ∧
          (∀ rows' ok, .closed (.capture pane.paneId) rows' ok ∉ between ∧ .closed (.capture pane.paneId) rows' ok ∉ after) ∧
          arrived pane.paneId between = [] ∧
          queued pane.paneId s'.events = arrived pane.paneId (between ++ after) := by
  obtain ⟨base, hbase, hlive, hall⟩ := hydrateFrom_cutover maxHydrationAttempts hi hc h
  refine ⟨hlive, fun pane hpane => ?_⟩
  obtain ⟨rows, snap, hmem, k1, k2, k3⟩ := hall pane hpane
  obtain ⟨before, between, metadata, after, c1, c2, c3, c4, c5⟩ := k3.covered
  refine ⟨rows, snap, hmem, k1, k2, base, before, between, metadata, after, hbase, c1, c2, c3, c4, ?_⟩
  rw [arrived_append, c4, List.nil_append, c5]

/-- a successful block with these rows -/
def answerOf (rows : List Bytes) (h : ∀ l ∈ rows, ¬ Closes ⟨1700000000, 42, 1⟩ l) : Answer where
  marker := ⟨1700000000, 42, 1⟩
  opening := ascii "%begin 1700000000 42 1\n"
  rows := rows
  ok := true
  closing := ascii "%end 1700000000 42 1\n"
  opens := by decide +kernel
  rowsOpen := h
  closes := by decide +kernel

def oneRow (row : String) (h : ∀ l ∈ [ascii row], ¬ Closes ⟨1700000000, 42, 1⟩ l) : List Move :=
  [.answer (answerOf [ascii row] h), .rest, .rest]

def noRow : List Move := [.answer (answerOf [] (by simp)), .rest]

def structureMoves : List Move :=
  oneRow "@1:1:main" (by decide +kernel) ++
    oneRow "$1:1700000000:@1:80:24:b25d,80x24,0,0,1" (by decide +kernel) ++
    oneRow "main" (by decide +kernel) ++
    oneRow "%1:@1:1:80:24:0:0:2:0:0:1:0:0:0:0:1:0:23" (by decide +kernel)

/-- one pane; a byte of output arrives before its capture and one behind it -/
def onePaneState : St :=
  { St.init (structureMoves ++ oneRow "title" (by decide +kernel) ++ oneRow "sh" (by decide +kernel) ++ noRow ++ noRow ++
      [.note ⟨ascii "%output %1 a\n", by decide +kernel⟩] ++ oneRow "$ " (by decide +kernel) ++
      oneRow "%1:@1:1:80:24:0:0:2:0:0:1:0:0:0:0:1:0:23" (by decide +kernel) ++
      [.note ⟨ascii "%output %1 b\n", by decide +kernel⟩] ++ structureMoves) with
    pending := [] }

/-- the byte before the capture is in the rows, the one behind it is in the queue -/
theorem hydration_cutover_onePane :
    ∃ w s', hydrate "$1".toList 1700000000 onePaneState = (.ok w, s') ∧ w.panes.length = 1 ∧
      s'.events = [.output "%1".toList (ascii "b")] ∧ ∀ e ∈ s'.events, e ≠ .refresh ∧ e ≠ .exit := by
  have hrun : (match hydrate "$1".toList 1700000000 onePaneState with
      | (.ok w, s') => w.panes.length == 1 && s'.events == [.output "%1".toList (ascii "b")]
      | _ => false) = true := by decide +kernel
  rcases hx : hydrate "$1".toList 1700000000 onePaneState with ⟨o, s'⟩
  rw [hx] at hrun
  cases o with
  | ok w =>
    simp only [Bool.and_eq_true, beq_iff_eq] at hrun
    exact ⟨w, s', rfl, hrun.1, hrun.2, (hydration_cutover _ _ _ _ _ ⟨rfl, rfl⟩ ⟨rfl, rfl, rfl⟩ hx).1⟩
  | error e => cases hrun
  | waiting => cases hrun

end OwlMux.Tmux
