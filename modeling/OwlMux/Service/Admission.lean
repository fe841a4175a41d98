/-
Source admission of `service.rs`: how many unauthenticated connections one address may hold, and how often it may try.

A table keeps, for each source, the live permits, the attempts and the end of a window of sixty seconds. `try_acquire` first drops
the entries that hold nothing and have ended, and begins a new window only for an entry without a live permit.

State: the table, the live permits, the permits ever granted with their times, and the time of the last call.

Results, over every sequence of calls and drops at nondecreasing times:
- `run_inv_counts`: the active count of an entry is the number of the source's live permits, and attempts are grants since its
  window began;
- `denial_sound`: a refusal has one of its three reasons, unless the source has used up a window that has ended while it held a
  permit (`Stale`). `overlap_refused`: such a window never restarts, and a source is refused that was granted nothing for a
  minute.
-/
import Mathlib.Tactic
import OwlMux.Lib.Machine

namespace OwlMux.Service

variable {Source : Type} [DecidableEq Source]

/-! ## The table -/

def maxAdmissionSources : ℕ := 4096
def maxPreauthPerSource : ℕ := 4
def maxPreauthAttemptsPerWindow : ℕ := 256
/-- nanoseconds -/
def admissionWindow : ℕ := 60000000000

structure SourceEntry where
  active : ℕ
  attempts : ℕ
  expiresAt : ℕ
deriving DecidableEq, Repr

abbrev Table (Source : Type) := List (Source × SourceEntry)

def Table.retain (m : Table Source) (now : ℕ) : Table Source := m.filter fun p => p.2.active ≠ 0 || now < p.2.expiresAt

def Table.contains (m : Table Source) (s : Source) : Bool := m.any fun p => p.1 = s

def Table.get (m : Table Source) (s : Source) : Option SourceEntry := (m.find? fun p => p.1 = s).map Prod.snd

def Table.update (m : Table Source) (s : Source) (f : SourceEntry → SourceEntry) : Table Source :=
  m.map fun p => if p.1 = s then (p.1, f p.2) else p

/-- `or_insert` -/
def Table.open (m : Table Source) (s : Source) (now : ℕ) : Table Source :=
  if m.contains s then m else m ++ [(s, ⟨0, 0, now + admissionWindow⟩)]

/-- a window that has ended begins again when nothing is held -/
def SourceEntry.restart (now : ℕ) (e : SourceEntry) : SourceEntry :=
  if e.active = 0 ∧ e.expiresAt ≤ now then { e with attempts := 0, expiresAt := now + admissionWindow } else e

def SourceEntry.grant (e : SourceEntry) : SourceEntry := { e with active := e.active + 1, attempts := e.attempts + 1 }

/-- the table with the source's entry as the decision finds it -/
def Table.current (m : Table Source) (s : Source) (now : ℕ) : Table Source :=
  ((m.retain now).open s now).update s (.restart now)

/-- `try_acquire`: the table, and whether a permit is given -/
def Table.tryAcquire (m : Table Source) (s : Source) (now : ℕ) : Table Source × Bool :=
  if !(m.retain now).contains s && maxAdmissionSources ≤ (m.retain now).length then (m.retain now, false)
  else
    match (m.current s now).get s with
    | some e =>
      if maxPreauthPerSource ≤ e.active ∨ maxPreauthAttemptsPerWindow ≤ e.attempts then (m.current s now, false)
      else ((m.current s now).update s .grant, true)
    | none => (m.current s now, false)

/-- `SourcePermit::drop` -/
def Table.release (m : Table Source) (s : Source) : Table Source := m.update s fun e => { e with active := e.active - 1 }

/-! ## Runs -/

structure St (Source : Type) where
  table : Table Source
  live : List Source
  granted : List (Source × ℕ)
  now : ℕ
deriving DecidableEq

def St.init : St Source := ⟨[], [], [], 0⟩

inductive Op (Source : Type) where
  | acquire (s : Source) (t : ℕ)
  | drop (s : Source)

/-- a call in the past, or the drop of a permit nobody holds, does not happen -/
def step (σ : St Source) : Op Source → St Source
  | .acquire s t =>
    if t < σ.now then σ
    else if (σ.table.tryAcquire s t).2 then
      ⟨(σ.table.tryAcquire s t).1, s :: σ.live, (s, t) :: σ.granted, t⟩
    else ⟨(σ.table.tryAcquire s t).1, σ.live, σ.granted, t⟩
  | .drop s => if s ∈ σ.live then { σ with table := σ.table.release s, live := σ.live.erase s } else σ

def refused (σ : St Source) (s : Source) (t : ℕ) : Prop := (σ.table.tryAcquire s t).2 = false

/-- the permits the source was granted in the minute before `t` -/
def recent (σ : St Source) (s : Source) (t : ℕ) : List (Source × ℕ) :=
  σ.granted.filter fun g => g.1 = s && t < g.2 + admissionWindow && g.2 ≤ t

/-- the table is full of other sources, each with a live permit or an unexpired window -/
def Full (σ : St Source) (s : Source) (t : ℕ) : Prop :=
  ∃ others : List Source, others.Nodup ∧ maxAdmissionSources ≤ others.length ∧ s ∉ others ∧
    ∀ o ∈ others, o ∈ σ.live ∨ ∃ e, (o, e) ∈ σ.table ∧ t < e.expiresAt

/-- one of the three reasons -/
def Justified (σ : St Source) (s : Source) (t : ℕ) : Prop :=
  σ.live.count s = maxPreauthPerSource ∨ maxPreauthAttemptsPerWindow ≤ (recent σ s t).length ∨ Full σ s t

/-- a used-up window that has ended while the source holds a permit -/
def Stale (σ : St Source) (s : Source) (t : ℕ) : Prop :=
  ∃ e, (s, e) ∈ σ.table ∧ e.active ≠ 0 ∧ e.expiresAt ≤ t ∧ maxPreauthAttemptsPerWindow ≤ e.attempts

/-! ## The invariant -/

/-- the permits the source was granted since the window that ends at `expiresAt` began -/
def since (granted : List (Source × ℕ)) (s : Source) (expiresAt : ℕ) : List (Source × ℕ) :=
  granted.filter fun g => g.1 = s && expiresAt ≤ g.2 + admissionWindow

structure EntryOk (live : List Source) (granted : List (Source × ℕ)) (now : ℕ) (s : Source) (e : SourceEntry) : Prop where
  active : e.active = live.count s
  bound : e.active ≤ maxPreauthPerSource
  attempts : e.attempts ≤ (since granted s e.expiresAt).length
  window : e.expiresAt ≤ now + admissionWindow

structure Counts (m : Table Source) (live : List Source) (granted : List (Source × ℕ)) (now : ℕ) : Prop where
  nodup : (m.map Prod.fst).Nodup
  entries : ∀ s e, (s, e) ∈ m → EntryOk live granted now s e
  absent : ∀ s, s ∉ m.map Prod.fst → s ∉ live

structure Inv (σ : St Source) : Prop where
  counts : Counts σ.table σ.live σ.granted σ.now
  past : ∀ g ∈ σ.granted, g.2 ≤ σ.now

variable {m : Table Source} {live : List Source} {granted : List (Source × ℕ)} {now t : ℕ} {s : Source} {e : SourceEntry}

theorem Table.contains_iff : m.contains s = true ↔ s ∈ m.map Prod.fst := by
  simp [Table.contains]

theorem Table.mem_of_get (h : m.get s = some e) : (s, e) ∈ m := by
  obtain ⟨p, hp, rfl⟩ := Option.map_eq_some_iff.1 h
  have hs := List.find?_some hp
  simp only [decide_eq_true_eq] at hs
  subst hs
  exact List.mem_of_find?_eq_some hp

theorem Table.keys_update (f : SourceEntry → SourceEntry) : (m.update s f).map Prod.fst = m.map Prod.fst := by
  rw [Table.update, List.map_map]
  refine List.map_congr_left ?_
  intro p _
  simp only [Function.comp_apply]
  split_ifs <;> rfl

theorem Table.mem_update {f : SourceEntry → SourceEntry} {r : Source} (h : (r, e) ∈ m.update s f) :
    (r ≠ s ∧ (r, e) ∈ m) ∨ (r = s ∧ ∃ e', (s, e') ∈ m ∧ e = f e') := by
  obtain ⟨p, hp, heq⟩ := List.mem_map.1 h
  split_ifs at heq with hs
  · cases heq
    exact .inr ⟨hs, p.2, hs ▸ hp, rfl⟩
  · subst heq
    exact .inl ⟨hs, hp⟩

theorem EntryOk.later (h : EntryOk live granted now s e) (ht : now ≤ t) : EntryOk live granted t s e :=
  ⟨h.active, h.bound, h.attempts, h.window.trans (by omega)⟩

/-- an update of one source's entry -/
theorem Counts.update {live' : List Source} {granted' : List (Source × ℕ)} (h : Counts m live granted now)
    (f : SourceEntry → SourceEntry) (hs : s ∈ m.map Prod.fst)
    (hf : ∀ e, (s, e) ∈ m → EntryOk live granted now s e → EntryOk live' granted' now s (f e))
    (hothers : ∀ r e, r ≠ s → EntryOk live granted now r e → EntryOk live' granted' now r e)
    (hlive : ∀ r, r ≠ s → r ∉ live → r ∉ live') : Counts (m.update s f) live' granted' now := by
  refine ⟨?_, ?_, ?_⟩
  · rw [Table.keys_update]
    exact h.nodup
  · intro r e hr
    rcases Table.mem_update hr with ⟨hne, hmem⟩ | ⟨rfl, e', hmem, rfl⟩
    · exact hothers r e hne (h.entries r e hmem)
    · exact hf e' hmem (h.entries _ e' hmem)
  · intro r hr
    rw [Table.keys_update] at hr
    have hne : r ≠ s := by
      rintro rfl
      exact hr hs
    exact hlive r hne (h.absent r hr)

theorem Counts.retain (h : Counts m live granted now) (t : ℕ) : Counts (m.retain t) live granted now := by
  refine ⟨h.nodup.sublist (List.filter_sublist.map Prod.fst), ?_, ?_⟩
  · intro s e hs
    exact h.entries s e (List.mem_of_mem_filter hs)
  · intro s hs
    by_cases hmem : s ∈ m.map Prod.fst
    · -- an entry that was dropped held nothing
      obtain ⟨p, hp, rfl⟩ := List.mem_map.1 hmem
      have hok := h.entries p.1 p.2 hp
      have hdropped : ¬ (p.2.active ≠ 0 || decide (t < p.2.expiresAt)) = true := by
        intro hkeep
        exact hs (List.mem_map.2 ⟨p, List.mem_filter.2 ⟨hp, hkeep⟩, rfl⟩)
      simp only [Bool.or_eq_true, decide_eq_true_eq, not_or, not_not] at hdropped
      have hzero := hok.active.symm.trans hdropped.1
      exact List.count_eq_zero.1 hzero
    · exact h.absent s hmem

theorem Counts.open (h : Counts m live granted now) (s : Source) : Counts (m.open s now) live granted now := by
  unfold Table.open
  split_ifs with hc
  · exact h
  · rw [Table.contains_iff] at hc
    refine ⟨?_, ?_, ?_⟩
    · rw [List.map_append]
      refine List.nodup_append.2 ⟨h.nodup, by simp, ?_⟩
      intro a ha b hb
      rw [List.map_singleton, List.mem_singleton] at hb
      intro heq
      rw [heq, hb] at ha
      exact hc ha
    · intro r e hr
      rcases List.mem_append.1 hr with hr | hr
      · exact h.entries r e hr
      · cases List.mem_singleton.1 hr
        have hzero : live.count s = 0 := List.count_eq_zero.2 (h.absent s hc)
        exact ⟨hzero.symm, Nat.zero_le _, Nat.zero_le _, le_rfl⟩
    · intro r hr
      rw [List.map_append, List.mem_append, not_or] at hr
      exact h.absent r hr.1

theorem Table.mem_open (s : Source) (now : ℕ) : s ∈ (m.open s now).map Prod.fst := by
  unfold Table.open
  split_ifs with hc
  · exact Table.contains_iff.1 hc
  · simp

theorem Counts.current (h : Counts m live granted now) (ht : now ≤ t) (s : Source) :
    Counts (m.current s t) live granted t := by
  have hlater : Counts m live granted t := ⟨h.nodup, fun r e hr => (h.entries r e hr).later ht, h.absent⟩
  refine ((hlater.retain t).open s).update (.restart t) (Table.mem_open s t) ?_ (fun r e _ hr => hr) (fun r _ hr => hr)
  intro e _ hok
  unfold SourceEntry.restart
  split_ifs
  · exact ⟨hok.active, hok.bound, Nat.zero_le _, le_rfl⟩
  · exact hok

theorem EntryOk.granted_mono {r : Source} (h : EntryOk live granted now s e) (hne : s ≠ r) :
    EntryOk (r :: live) ((r, t) :: granted) now s e := by
  refine ⟨?_, h.bound, ?_, h.window⟩
  · rw [List.count_cons_of_ne hne.symm]
    exact h.active
  · refine h.attempts.trans ?_
    exact ((List.sublist_cons_self _ granted).filter _).length_le

/-- the new permit counts: its grant is not before the window began -/
theorem EntryOk.grant (h : EntryOk live granted now s e) (hfree : e.active < maxPreauthPerSource) :
    EntryOk (s :: live) ((s, now) :: granted) now s e.grant := by
  refine ⟨?_, hfree, ?_, h.window⟩
  · rw [List.count_cons_self, ← h.active]
    rfl
  · have hin : (decide (s = s) && decide (e.expiresAt ≤ now + admissionWindow)) = true := by
      simpa using h.window
    have hcons : since ((s, now) :: granted) s e.grant.expiresAt = (s, now) :: since granted s e.expiresAt :=
      List.filter_cons_of_pos hin
    rw [hcons, List.length_cons]
    exact Nat.succ_le_succ h.attempts

theorem EntryOk.drop (h : EntryOk live granted now s e) :
    EntryOk (live.erase s) granted now s { e with active := e.active - 1 } := by
  refine ⟨?_, (Nat.sub_le _ _).trans h.bound, h.attempts, h.window⟩
  rw [List.count_erase_self, ← h.active]

/-! ## What a call does -/

theorem Table.get_of_mem (hn : (m.map Prod.fst).Nodup) (h : (s, e) ∈ m) : m.get s = some e := by
  have hsome : (m.find? fun p => p.1 = s).isSome := by
    rw [List.find?_isSome]
    exact ⟨_, h, by simp⟩
  obtain ⟨p, hp⟩ := Option.isSome_iff_exists.1 hsome
  have hget : m.get s = some p.2 := by rw [Table.get, hp, Option.map_some]
  have hmem := Table.mem_of_get hget
  have heq : (s, p.2) = (s, e) := List.inj_on_of_nodup_map hn hmem h rfl
  rw [hget, (Prod.mk.inj heq).2]

/-- the three ways a call ends -/
theorem Table.tryAcquire_cases (m : Table Source) (s : Source) (t : ℕ) :
    ((m.tryAcquire s t) = (m.retain t, false) ∧ s ∉ (m.retain t).map Prod.fst ∧ maxAdmissionSources ≤ (m.retain t).length) ∨
    (∃ e, (s, e) ∈ m.current s t ∧ m.tryAcquire s t = (m.current s t, false) ∧
      (maxPreauthPerSource ≤ e.active ∨ maxPreauthAttemptsPerWindow ≤ e.attempts)) ∨
    (∃ e, (m.current s t).get s = some e ∧ m.tryAcquire s t = ((m.current s t).update s .grant, true) ∧
      e.active < maxPreauthPerSource ∧ e.attempts < maxPreauthAttemptsPerWindow) := by
  unfold Table.tryAcquire
  split_ifs with hfull
  · left
    rw [Bool.and_eq_true, Bool.not_eq_true', ← Bool.not_eq_true, Table.contains_iff, decide_eq_true_eq] at hfull
    exact ⟨rfl, hfull⟩
  · right
    have hmem : s ∈ (m.current s t).map Prod.fst := by
      rw [Table.current, Table.keys_update]
      exact Table.mem_open s t
    cases hget : (m.current s t).get s with
    | none =>
      obtain ⟨p, hp, hs⟩ := List.mem_map.1 hmem
      have hnone := List.find?_eq_none.1 (Option.map_eq_none_iff.1 hget) p hp
      exact absurd (by simpa using hs) hnone
    | some e =>
      dsimp only
      split_ifs with hdeny
      · exact .inl ⟨e, Table.mem_of_get hget, rfl, hdeny⟩
      · rw [not_or, not_le, not_le] at hdeny
        exact .inr ⟨e, rfl, rfl, hdeny⟩

/-- the entry of the caller, as the decision finds it, is a fresh one or the table's: nothing is left to restart, since `retain`
    has just dropped every entry that could be -/
theorem Table.mem_current (h : (s, e) ∈ m.current s t) :
    e = ⟨0, 0, t + admissionWindow⟩ ∨ ((s, e) ∈ m ∧ (e.active ≠ 0 ∨ t < e.expiresAt)) := by
  rcases Table.mem_update h with ⟨hne, _⟩ | ⟨_, e', hmem, rfl⟩
  · exact absurd rfl hne
  have hfresh : e' = ⟨0, 0, t + admissionWindow⟩ ∨ (s, e') ∈ m.retain t := by
    unfold Table.open at hmem
    split_ifs at hmem
    · exact .inr hmem
    · rcases List.mem_append.1 hmem with hmem | hmem
      · exact .inr hmem
      · cases List.mem_singleton.1 hmem
        exact .inl rfl
  rcases hfresh with rfl | hmem
  · left
    have hlate : ¬ t + admissionWindow ≤ t := by simp [admissionWindow]
    simp [SourceEntry.restart, hlate]
  · have hkept := (List.mem_filter.1 hmem).2
    simp only [Bool.or_eq_true, decide_eq_true_eq] at hkept
    have hidle : ¬ (e'.active = 0 ∧ e'.expiresAt ≤ t) := by
      rintro ⟨hzero, hended⟩
      rcases hkept with hactive | hopen
      · exact hactive hzero
      · omega
    have hsame : SourceEntry.restart t e' = e' := if_neg hidle
    rw [hsame]
    exact .inr ⟨List.mem_of_mem_filter hmem, hkept⟩

/-! ## Every run -/

theorem Counts.later (h : Counts m live granted now) (ht : now ≤ t) : Counts m live granted t :=
  ⟨h.nodup, fun r e hr => (h.entries r e hr).later ht, h.absent⟩

theorem Counts.given (h : Counts m live granted now) (hget : m.get s = some e) (hfree : e.active < maxPreauthPerSource) :
    Counts (m.update s .grant) (s :: live) ((s, now) :: granted) now := by
  have hmem := Table.mem_of_get hget
  refine h.update .grant (List.mem_map.2 ⟨_, hmem, rfl⟩) ?_ ?_ ?_
  · intro e' hmem' hok
    have hsame : some e' = some e := (Table.get_of_mem h.nodup hmem').symm.trans hget
    cases hsame
    exact hok.grant hfree
  · intro r e' hne hok
    exact hok.granted_mono hne
  · intro r hne hr
    rw [List.mem_cons, not_or]
    exact ⟨hne, hr⟩

theorem Counts.released (h : Counts m live granted now) (hlive : s ∈ live) :
    Counts (m.release s) (live.erase s) granted now := by
  have hmem : s ∈ m.map Prod.fst := by
    by_contra habsent
    exact h.absent s habsent hlive
  refine h.update _ hmem ?_ ?_ ?_
  · intro e _ hok
    exact hok.drop
  · intro r e hne hok
    refine ⟨?_, hok.bound, hok.attempts, hok.window⟩
    rw [List.count_erase_of_ne hne]
    exact hok.active
  · intro r _ hr hmem'
    exact hr (List.mem_of_mem_erase hmem')

theorem step_inv (σ : St Source) (o : Op Source) (h : Inv σ) : Inv (step σ o) := by
  cases o with
  | acquire s t =>
    unfold step
    dsimp only
    split_ifs with hpast hgrant
    · exact h
    · -- a grant
      have ht : σ.now ≤ t := not_lt.1 hpast
      rcases σ.table.tryAcquire_cases s t with ⟨hout, _⟩ | ⟨e, _, hout, _⟩ | ⟨e, hget, hout, hfree, _⟩
      · simp [hout] at hgrant
      · simp [hout] at hgrant
      · rw [hout]
        refine ⟨(h.counts.current ht s).given hget hfree, ?_⟩
        intro g hg
        rcases List.mem_cons.1 hg with rfl | hg
        · exact le_rfl
        · exact (h.past g hg).trans ht
    · -- a refusal
      have ht : σ.now ≤ t := not_lt.1 hpast
      refine ⟨?_, fun g hg => (h.past g hg).trans ht⟩
      rcases σ.table.tryAcquire_cases s t with ⟨hout, _⟩ | ⟨e, _, hout, _⟩ | ⟨e, _, hout, _⟩
      · rw [hout]
        exact (h.counts.later ht).retain t
      · rw [hout]
        exact h.counts.current ht s
      · simp [hout] at hgrant
  | drop s =>
    unfold step
    dsimp only
    split_ifs with hlive
    · exact ⟨h.counts.released hlive, h.past⟩
    · exact h

theorem init_inv : Inv (St.init : St Source) := by
  refine ⟨⟨List.nodup_nil, ?_, ?_⟩, ?_⟩
  · intro s e h
    cases h
  · intro s _ h
    cases h
  · intro g h
    cases h

theorem run_inv_counts (ops : List (Op Source)) : Inv (Machine.run step St.init ops) :=
  Machine.run_inv step_inv _ ops init_inv

/-- a table without room: the sources it holds are the others -/
theorem Inv.full {σ : St Source} (h : Inv σ) (hout : s ∉ (σ.table.retain t).map Prod.fst)
    (hroom : maxAdmissionSources ≤ (σ.table.retain t).length) : Full σ s t := by
  refine ⟨(σ.table.retain t).map Prod.fst, ((h.counts.retain t).nodup), ?_, hout, ?_⟩
  · rw [List.length_map]
    exact hroom
  · intro o ho
    obtain ⟨p, hp, rfl⟩ := List.mem_map.1 ho
    obtain ⟨hmem, hkept⟩ := List.mem_filter.1 hp
    simp only [Bool.or_eq_true, decide_eq_true_eq] at hkept
    rcases hkept with hactive | hopen
    · left
      rw [(h.counts.entries p.1 p.2 hmem).active] at hactive
      exact List.count_pos_iff.1 (Nat.pos_of_ne_zero hactive)
    · exact .inr ⟨p.2, hmem, hopen⟩

/-- an unexpired window holds only grants of the last minute -/
theorem Inv.since_le_recent {σ : St Source} (h : Inv σ) (ht : σ.now ≤ t) (s : Source) {x : ℕ} (hopen : t < x) :
    (since σ.granted s x).length ≤ (recent σ s t).length := by
  rw [since, recent, ← List.countP_eq_length_filter, ← List.countP_eq_length_filter]
  refine List.countP_mono_left ?_
  intro g hg hin
  have hpast := h.past g hg
  simp only [Bool.and_eq_true, decide_eq_true_eq] at hin ⊢
  exact ⟨⟨hin.1, by omega⟩, by omega⟩

theorem Inv.denied {σ : St Source} (h : Inv σ) (ht : σ.now ≤ t) (hstale : ¬ Stale σ s t) (hrefused : refused σ s t) :
    Justified σ s t := by
  rcases σ.table.tryAcquire_cases s t with ⟨_, hout, hroom⟩ | ⟨e, hmem, _, hdeny⟩ | ⟨e, _, hout, _⟩
  · exact .inr (.inr (h.full hout hroom))
  · have hok := (h.counts.current ht s).entries s e hmem
    rcases Table.mem_current hmem with rfl | ⟨htable, hkept⟩
    · -- a fresh entry refuses nothing
      rcases hdeny with hdeny | hdeny
      · exact absurd hdeny (Nat.not_succ_le_zero 3)
      · exact absurd hdeny (Nat.not_succ_le_zero 255)
    · rcases hdeny with hheld | hspent
      · left
        rw [← hok.active]
        exact le_antisymm hok.bound hheld
      · right
        left
        have hopen : t < e.expiresAt := by
          by_contra hended
          rcases hkept with hactive | hopen
          · exact hstale ⟨e, htable, hactive, not_lt.1 hended, hspent⟩
          · exact hended hopen
        calc maxPreauthAttemptsPerWindow ≤ e.attempts := hspent
          _ ≤ (since σ.granted s e.expiresAt).length := hok.attempts
          _ ≤ (recent σ s t).length := h.since_le_recent ht s hopen
  · rw [refused, hout] at hrefused
    cases hrefused

/-- Active counts are the live permits, and a refusal has a reason unless a used-up window has ended under a permit. -/
theorem denial_sound (ops : List (Op Source)) :
    (∀ s e, (s, e) ∈ (Machine.run step St.init ops).table → e.active = (Machine.run step St.init ops).live.count s) ∧
    ∀ s t, (Machine.run step St.init ops).now ≤ t → ¬ Stale (Machine.run step St.init ops) s t →
      refused (Machine.run step St.init ops) s t → Justified (Machine.run step St.init ops) s t := by
  have hinv := run_inv_counts ops
  refine ⟨?_, ?_⟩
  · intro s e hmem
    exact (hinv.counts.entries s e hmem).active
  · intro s t ht hstale hrefused
    exact hinv.denied ht hstale hrefused

/-- four permits at once: the fifth call is refused, and for this reason -/
theorem denial_sound_four : Justified (Machine.run step St.init (List.replicate 4 (.acquire (127 : BitVec 32) 0))) 127 5 := by
  have hstale : ¬ Stale (Machine.run step St.init (List.replicate 4 (.acquire (127 : BitVec 32) 0))) 127 5 := by
    rintro ⟨e, hmem, _, hended, _⟩
    have htable : (Machine.run step St.init (List.replicate 4 (.acquire (127 : BitVec 32) 0))).table =
        [(127, ⟨4, 4, 60000000000⟩)] := by decide +kernel
    rw [htable] at hmem
    cases List.mem_singleton.1 hmem
    exact absurd hended (by decide)
  exact (denial_sound _).2 127 5 (by decide +kernel) hstale (by unfold refused; decide +kernel)

/-- one permit is held while 255 others come and go -/
def overlapping : List (Op (BitVec 32)) :=
  .acquire 127 0 :: (List.replicate 255 [.acquire 127 0, .drop 127]).flatten

/-- A second after the window ended, the source is refused, with one permit and no grant in the last minute. -/
theorem overlap_refused : ∃ (ops : List (Op (BitVec 32))) (s : BitVec 32) (t : ℕ), (Machine.run step St.init ops).now ≤ t ∧
    refused (Machine.run step St.init ops) s t ∧ ¬ Justified (Machine.run step St.init ops) s t := by
  have hstate : Machine.run step St.init overlapping =
      ⟨[(127, ⟨1, 256, 60000000000⟩)], [127], List.replicate 256 (127, 0), 0⟩ := by decide +kernel
  refine ⟨overlapping, 127, 61000000000, ?_⟩
  rw [hstate]
  refine ⟨by decide, by unfold refused; decide +kernel, ?_⟩
  rintro (hheld | hspent | ⟨others, _, hlength, hs, hothers⟩)
  · exact absurd hheld (by decide)
  · exact absurd hspent (by decide +kernel)
  · cases others with
    | nil => exact absurd hlength (by decide)
    | cons o others =>
      rcases hothers o List.mem_cons_self with hlive | ⟨e, hmem, _⟩
      · rw [List.mem_singleton.1 hlive] at hs
        exact hs List.mem_cons_self
      · cases List.mem_singleton.1 hmem
        exact hs List.mem_cons_self

end OwlMux.Service
