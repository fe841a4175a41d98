/-
`WriterRegistry` (`owlmux-server/src/writer.rs`): one writer scope per Machine, replaced whenever a call brings another route.

A scope object is named by its index in `objects`; the map holds the index of the Machine's present object, and every
attachment keeps the object its own call returned. A replaced object lives on as long as an attachment holds it.

- `scope`: `WriterRegistry::scope`; `returned` records each call with the object it returned, oldest first;
- `claim`, `clear`, `release`: `set_current` of a claim or takeover through a held object, `clear_if_current`, and
  `release_attachment`, which reaches only the objects still in the map.

A call returns the present object of its Machine if and only if the last call for that Machine had the same route
(`scope_spec`). So an attachment of an old route that calls late, between two calls of the new one, makes the second of
them return a second object.

Results:
- `one_scope_per_route`: in a run, calls with the same Machine and route return one object, and the attachments of a route
  share at most one current writer, iff no call of another route lies between two calls of the same route;
- `late_call_splits_route`: three calls and two claims after which one live route has two writers.
-/
import Mathlib.Tactic
import OwlMux.Lib.Machine
import OwlMux.Relay.Protocol

namespace OwlMux.Writer.Registry

open OwlMux.Relay (Uuid RouteIdentity)

structure Scope where
  route : RouteIdentity
  /-- attachment of `WriterState::current` -/
  current : Option Uuid
deriving DecidableEq, Repr

/-- one call of `scope`: machine, route, object returned -/
structure Call where
  machine : Uuid
  route : RouteIdentity
  object : ℕ
deriving DecidableEq, Repr

structure St where
  scopes : Uuid → Option ℕ
  objects : List Scope
  returned : List Call

def init : St := { scopes := fun _ => none, objects := [], returned := [] }

inductive Op where
  | scope (machine : Uuid) (route : RouteIdentity)
  | claim (object : ℕ) (attachment : Uuid)
  | clear (object : ℕ) (attachment : Uuid)
  | release (attachment : Uuid)
deriving DecidableEq, Repr

/-- `WriterRegistry::scope` -/
def scope (s : St) (machine : Uuid) (route : RouteIdentity) : ℕ × St :=
  match s.scopes machine with
  | some i =>
    if (s.objects[i]?).map Scope.route = some route then (i, s)
    else (s.objects.length,
      { s with scopes := Function.update s.scopes machine (some s.objects.length), objects := s.objects ++ [⟨route, none⟩] })
  | none => (s.objects.length,
      { s with scopes := Function.update s.scopes machine (some s.objects.length), objects := s.objects ++ [⟨route, none⟩] })

def Scope.clearIfCurrent (attachment : Uuid) (x : Scope) : Scope :=
  if x.current = some attachment then { x with current := none } else x

/-- change object `i`, if there is one -/
def modifyObject (s : St) (i : ℕ) (f : Scope → Scope) : St := { s with objects := s.objects.modify i f }

def step (s : St) : Op → St
  | .scope m r => { (scope s m r).2 with returned := s.returned ++ [⟨m, r, (scope s m r).1⟩] }
  | .claim i a => modifyObject s i fun x => { x with current := some a }
  | .clear i a => modifyObject s i (Scope.clearIfCurrent a)
  | .release a =>
    { s with objects := s.objects.mapIdx fun i x => if ∃ c ∈ s.returned, s.scopes c.machine = some i then x.clearIfCurrent a else x }

def run (s : St) (ops : List Op) : St := Machine.run step s ops

/-- the calls of a run, in order -/
def calls (ops : List Op) : List (Uuid × RouteIdentity) :=
  ops.filterMap fun
    | .scope m r => some (m, r)
    | _ => none

/-! ## What a call returns -/

/-- the last call for a Machine -/
def lastCall (l : List Call) (m : Uuid) : Option Call := (l.filter fun c => c.machine = m).getLast?

structure Inv (s : St) : Prop where
  /-- the map holds the object of the last call -/
  present : ∀ m, s.scopes m = (lastCall s.returned m).map Call.object
  /-- a returned object exists and has the route of its call -/
  route : ∀ c ∈ s.returned, (s.objects[c.object]?).map Scope.route = some c.route

theorem inv_init : Inv init := ⟨fun _ => rfl, by simp [init]⟩

variable {s : St}

theorem lastCall_mem {l : List Call} {m : Uuid} {c : Call} (h : lastCall l m = some c) : c ∈ l ∧ c.machine = m := by
  have := List.mem_of_getLast? h
  simpa using this

theorem lastCall_snoc (l : List Call) (c : Call) (m : Uuid) :
    lastCall (l ++ [c]) m = if c.machine = m then some c else lastCall l m := by
  unfold lastCall
  rw [List.filter_append]
  by_cases h : c.machine = m
  · simp [h]
  · simp [h]

/-- **A call returns the present object iff the last call for its Machine had the same route**, else a fresh one. -/
theorem scope_spec (h : Inv s) (m : Uuid) (r : RouteIdentity) :
    (∃ c, lastCall s.returned m = some c ∧ c.route = r ∧ scope s m r = (c.object, s)) ∨
    ((∀ c, lastCall s.returned m = some c → c.route ≠ r) ∧
      scope s m r = (s.objects.length,
        { s with scopes := Function.update s.scopes m (some s.objects.length), objects := s.objects ++ [⟨r, none⟩] })) := by
  unfold scope
  rw [h.present m]
  cases hl : lastCall s.returned m with
  | none => exact Or.inr ⟨by simp, rfl⟩
  | some c =>
    have hr := h.route c (lastCall_mem hl).1
    by_cases he : c.route = r
    · exact Or.inl ⟨c, rfl, he, by simp [hr, he]⟩
    · refine Or.inr ⟨by simpa using he, ?_⟩
      simp [hr, he]

theorem Inv.modify (h : Inv s) {objects : List Scope} (hr : ∀ i : ℕ, (objects[i]?).map Scope.route = (s.objects[i]?).map Scope.route) :
    Inv { s with objects := objects } :=
  ⟨h.present, fun c hc => (hr c.object).trans (h.route c hc)⟩

theorem clearIfCurrent_route (a : Uuid) (x : Scope) : (x.clearIfCurrent a).route = x.route := by
  unfold Scope.clearIfCurrent; split_ifs <;> rfl

theorem step_inv (h : Inv s) (o : Op) : Inv (step s o) := by
  cases o with
  | scope m r =>
    simp only [step]
    rcases scope_spec h m r with ⟨c, hl, he, hs⟩ | ⟨-, hs⟩
    · rw [hs]
      refine ⟨fun m' => ?_, fun c' hc' => ?_⟩
      · show s.scopes m' = _
        rw [h.present m', lastCall_snoc]
        split_ifs with hm
        · have : m = m' := hm
          rw [← this, hl]; rfl
        · rfl
      · rcases List.mem_append.1 hc' with hc' | hc'
        · exact h.route c' hc'
        · simp only [List.mem_singleton] at hc'; subst hc'
          exact he ▸ h.route c (lastCall_mem hl).1
    · rw [hs]
      refine ⟨fun m' => ?_, fun c' hc' => ?_⟩
      · rw [lastCall_snoc]
        by_cases hm : m = m'
        · subst hm; simp
        · simp [hm, Function.update_of_ne (Ne.symm hm), h.present m']
      · rcases List.mem_append.1 hc' with hc' | hc'
        · have hr := h.route c' hc'
          have hlt : c'.object < s.objects.length := by
            by_contra hge
            simp [List.getElem?_eq_none (not_lt.1 hge)] at hr
          simpa [List.getElem?_append_left hlt] using hr
        · simp only [List.mem_singleton] at hc'; subst hc'
          simp
  | claim i a =>
    refine h.modify fun j => ?_
    rw [List.getElem?_modify]
    cases hj : s.objects[j]? with
    | none => simp
    | some x => by_cases hij : i = j <;> simp [hij]
  | clear i a =>
    refine h.modify fun j => ?_
    rw [List.getElem?_modify]
    cases hj : s.objects[j]? with
    | none => simp
    | some x => by_cases hij : i = j <;> simp [hij, clearIfCurrent_route]
  | release a =>
    refine h.modify fun j => ?_
    rw [List.getElem?_mapIdx]
    cases hj : s.objects[j]? with
    | none => simp
    | some x =>
      simp only [Option.map_some]
      split_ifs <;> simp [clearIfCurrent_route]

theorem run_inv (ops : List Op) : Inv (run init ops) :=
  Machine.run_inv (I := Inv) (fun _ o h => step_inv h o) init ops inv_init

/-! ## One object per route -/

/-- calls with the same Machine and route returned the same object -/
def SameObject (s : St) : Prop :=
  ∀ c ∈ s.returned, ∀ c' ∈ s.returned, c.machine = c'.machine → c.route = c'.route → c.object = c'.object

/-- the attachments of one route of a Machine share at most one current writer -/
def SingleWriter (s : St) : Prop :=
  ∀ c ∈ s.returned, ∀ c' ∈ s.returned, c.machine = c'.machine → c.route = c'.route → ∀ a b,
    (s.objects[c.object]?).bind Scope.current = some a → (s.objects[c'.object]?).bind Scope.current = some b → a = b

/-- no call of another route for the Machine between two calls of the same route -/
def Unreplaced (l : List (Uuid × RouteIdentity)) : Prop :=
  ∀ m r r', [(m, r), (m, r'), (m, r)].Sublist l → r' = r

theorem SameObject.singleWriter (h : SameObject s) : SingleWriter s := by
  intro c hc c' hc' hm hr a b ha hb
  rw [h c hc c' hc' hm hr, hb] at ha
  exact (Option.some.inj ha).symm

/-- the calls that have returned -/
def made (s : St) : List (Uuid × RouteIdentity) := s.returned.map fun c => (c.machine, c.route)

theorem made_run (ops : List Op) : made (run init ops) = calls ops := by
  induction ops using List.reverseRecOn with
  | nil => rfl
  | append_singleton ops o ih =>
    have hs : run init (ops ++ [o]) = step (run init ops) o := Machine.run_snoc init ops o
    rw [hs, calls, List.filterMap_append, ← calls, ← ih]
    cases o <;> simp [step, made, modifyObject]

/-- a further call: the condition is broken by it exactly when its route was called before and is not the last one -/
theorem unreplaced_snoc (l : List (Uuid × RouteIdentity)) (m : Uuid) (r : RouteIdentity) :
    Unreplaced (l ++ [(m, r)]) ↔ Unreplaced l ∧ ∀ r', [(m, r), (m, r')].Sublist l → r' = r := by
  constructor
  · intro h
    refine ⟨fun m' r1 r2 hs => h m' r1 r2 (hs.trans (List.sublist_append_left _ _)), fun r' hs => h m r r' ?_⟩
    exact hs.append (List.Sublist.refl [(m, r)])
  · rintro ⟨h1, h2⟩ m' r1 r2 hs
    obtain ⟨l1, l2, he, hs1, hs2⟩ := List.sublist_append_iff.1 hs
    rcases List.sublist_singleton.1 hs2 with rfl | rfl
    · exact h1 m' r1 r2 (by rw [he]; simpa using hs1)
    · have he' : [(m', r1), (m', r2)] ++ [(m', r1)] = l1 ++ [(m, r)] := he
      obtain ⟨h3, h4⟩ := List.append_inj' he' rfl
      obtain ⟨rfl, rfl⟩ : m' = m ∧ r1 = r := by simpa using h4
      exact h2 r2 (h3 ▸ hs1)

theorem made_sublist_filter (m : Uuid) :
    ((s.returned.filter fun c => c.machine = m).map fun c => (c.machine, c.route)).Sublist (made s) :=
  List.filter_sublist.map _

/-- the last call for the Machine had another route, and the route was called before -/
theorem pair_of_last {m : Uuid} {c c' : Call} (hl : lastCall s.returned m = some c) (hc' : c' ∈ s.returned)
    (hm : c'.machine = m) (hr : c.route ≠ c'.route) : [(m, c'.route), (m, c.route)].Sublist (made s) := by
  obtain ⟨ys, hys⟩ := List.getLast?_eq_some_iff.1 hl
  have hmem : c' ∈ ys := by
    have : c' ∈ s.returned.filter fun c => c.machine = m := by simp [hc', hm]
    rw [hys] at this
    rcases List.mem_append.1 this with h | h
    · exact h
    · simp only [List.mem_singleton] at h; subst h; exact (hr rfl).elim
  have hcm := (lastCall_mem hl).2
  have h1 : [c', c].Sublist (s.returned.filter fun c => c.machine = m) := by
    rw [hys]; exact (List.singleton_sublist.2 hmem).append (List.Sublist.refl [c])
  have h2 := (h1.map fun c => (c.machine, c.route)).trans (made_sublist_filter m)
  simpa [hm, hcm] using h2

/-- the last call for the Machine had this route: what lies between two calls of it is already in the past -/
theorem triple_of_last {m : Uuid} {c : Call} {r' : RouteIdentity} (hl : lastCall s.returned m = some c)
    (hs : [(m, c.route), (m, r')].Sublist (made s)) (hr : r' ≠ c.route) :
    [(m, c.route), (m, r'), (m, c.route)].Sublist (made s) := by
  obtain ⟨ys, hys⟩ := List.getLast?_eq_some_iff.1 hl
  have hcm := (lastCall_mem hl).2
  have hf : [(m, c.route), (m, r')].Sublist ((s.returned.filter fun c => c.machine = m).map fun c => (c.machine, c.route)) := by
    have := hs.filter fun p => p.1 = m
    simpa [made, List.filter_map, Function.comp_def] using this
  rw [hys, List.map_append] at hf
  obtain ⟨l1, l2, he, hs1, hs2⟩ := List.sublist_append_iff.1 hf
  have hl2 : l2 = [] := by
    rcases List.sublist_singleton.1 hs2 with rfl | rfl
    · rfl
    · have he' : [(m, c.route)] ++ [(m, r')] = l1 ++ [(c.machine, c.route)] := he
      obtain ⟨-, h4⟩ := List.append_inj' he' rfl
      exact (hr (by simpa using (congrArg (List.map Prod.snd) h4))).elim
  subst hl2
  rw [List.append_nil] at he
  subst he
  have h3 := (hs1.append (List.Sublist.refl [(m, c.route)]))
  refine List.Sublist.trans ?_ (made_sublist_filter m)
  rw [hys, List.map_append]
  simpa [hcm] using h3

/-- one more call keeps the objects of all routes apart exactly when it meets the condition -/
theorem sameObject_scope (h : Inv s) (m : Uuid) (r : RouteIdentity) (hu : Unreplaced (made s)) (hs : SameObject s) :
    SameObject (step s (.scope m r)) ↔ ∀ r', [(m, r), (m, r')].Sublist (made s) → r' = r := by
  have hret : (step s (.scope m r)).returned = s.returned ++ [⟨m, r, (scope s m r).1⟩] := by
    simp [step]
  have hsplit : SameObject (step s (.scope m r)) ↔
      ∀ c ∈ s.returned, c.machine = m → c.route = r → c.object = (scope s m r).1 := by
    unfold SameObject
    rw [hret]
    constructor
    · intro hall c hc hm hr
      exact hall c (List.mem_append_left _ hc) _ (List.mem_append_right _ (List.mem_singleton_self _)) hm hr
    · intro hall c hc c' hc' hm hr
      rcases List.mem_append.1 hc with hc | hc <;> rcases List.mem_append.1 hc' with hc' | hc'
      · exact hs c hc c' hc' hm hr
      · simp only [List.mem_singleton] at hc'; subst hc'; exact hall c hc hm hr
      · simp only [List.mem_singleton] at hc; subst hc; exact (hall c' hc' hm.symm hr.symm).symm
      · simp only [List.mem_singleton] at hc hc'; rw [hc, hc']
  rw [hsplit]
  rcases scope_spec h m r with ⟨c, hl, rfl, he⟩ | ⟨hne, he⟩
  · rw [he]
    refine iff_of_true (fun c' hc' hm hr => ?_) fun r' hp => ?_
    · exact hs c' hc' c (lastCall_mem hl).1 (hm.trans (lastCall_mem hl).2.symm) hr
    · by_contra hr'
      exact hr' (hu m c.route r' (triple_of_last hl hp hr'))
  · rw [he]
    constructor
    · intro hall r' hp
      have hmem : (m, r) ∈ made s := hp.subset List.mem_cons_self
      obtain ⟨c, hc, hcr⟩ := List.mem_map.1 hmem
      obtain ⟨hcm, hcr⟩ : c.machine = m ∧ c.route = r := by simpa using hcr
      have hroute := h.route c hc
      rw [hall c hc hcm hcr] at hroute
      simp at hroute
    · intro hp c hc hm hr
      obtain ⟨c', hl⟩ : ∃ c', lastCall s.returned m = some c' := by
        cases hl : lastCall s.returned m with
        | some c' => exact ⟨c', rfl⟩
        | none =>
          have : c ∈ s.returned.filter fun c => c.machine = m := by simp [hc, hm]
          rw [lastCall, List.getLast?_eq_none_iff] at hl
          simp [hl] at this
      have hcr : c'.route ≠ c.route := hr ▸ hne c' hl
      exact (hcr ((hp c'.route (hr ▸ pair_of_last hl hc hm hcr)).trans hr.symm)).elim

theorem sameObject_run (ops : List Op) : SameObject (run init ops) ↔ Unreplaced (calls ops) := by
  induction ops using List.reverseRecOn with
  | nil => exact iff_of_true (by simp [SameObject, run, init]) fun m r r' hs => by simp [calls] at hs
  | append_singleton ops o ih =>
    have hrun : run init (ops ++ [o]) = step (run init ops) o := Machine.run_snoc init ops o
    rw [hrun]
    cases o with
    | scope m r =>
      have hcalls : calls (ops ++ [.scope m r]) = calls ops ++ [(m, r)] := by simp [calls]
      rw [hcalls, unreplaced_snoc]
      constructor
      · intro h
        have hs : SameObject (run init ops) := fun c hc c' hc' =>
          h c (List.mem_append_left _ hc) c' (List.mem_append_left _ hc')
        have hu := ih.1 hs
        refine ⟨hu, ?_⟩
        rw [← made_run] at hu ⊢
        exact (sameObject_scope (run_inv ops) m r hu hs).1 h
      · rintro ⟨hu, hp⟩
        have hs := ih.2 hu
        rw [← made_run] at hu hp
        exact (sameObject_scope (run_inv ops) m r hu hs).2 hp
    | claim i a => simpa [calls, step, SameObject, modifyObject] using ih
    | clear i a => simpa [calls, step, SameObject, modifyObject] using ih
    | release a => simpa [calls, step, SameObject] using ih

theorem Unreplaced.of_append {a b : List (Uuid × RouteIdentity)} (h : Unreplaced (a ++ b)) : Unreplaced a :=
  fun m r r' hs => h m r r' (hs.trans (List.sublist_append_left _ _))

/-- **One writer scope per live route, exactly when it holds.** At every moment of a run the calls of one route have
returned one object and its attachments share at most one writer, if and only if no call of another route of the Machine
lies between two calls of the same route. -/
theorem one_scope_per_route (ops : List Op) :
    (∀ pre post, ops = pre ++ post → SameObject (run init pre) ∧ SingleWriter (run init pre)) ↔ Unreplaced (calls ops) := by
  constructor
  · intro h
    exact (sameObject_run ops).1 (h ops [] (by simp)).1
  · rintro h pre post rfl
    rw [calls, List.filterMap_append] at h
    have hs := (sameObject_run pre).2 h.of_append
    exact ⟨hs, hs.singleWriter⟩

/-- the new route, an attachment of the old route that is late, and the new route again; both attachments of the new
route then claim the pointer of the object they were given -/
def lateOps : List Op :=
  [.scope 1 ⟨1, 2, 20⟩, .scope 1 ⟨1, 1, 10⟩, .scope 1 ⟨1, 2, 20⟩, .claim 0 100, .claim 2 200]

/-- **A late call of an old route splits the new one.** Two calls of route epoch 2 return objects 0 and 2, and two
attachments of that route are current writers at once. -/
theorem late_call_splits_route :
    (run init lateOps).returned = [⟨1, ⟨1, 2, 20⟩, 0⟩, ⟨1, ⟨1, 1, 10⟩, 1⟩, ⟨1, ⟨1, 2, 20⟩, 2⟩] ∧
    (run init lateOps).objects.map Scope.current = [some 100, none, some 200] ∧
    ¬ ∀ ops pre post, ops = pre ++ post → SameObject (run init pre) ∧ SingleWriter (run init pre) := by
  have hr : (run init lateOps).returned = [⟨1, ⟨1, 2, 20⟩, 0⟩, ⟨1, ⟨1, 1, 10⟩, 1⟩, ⟨1, ⟨1, 2, 20⟩, 2⟩] := by decide +kernel
  refine ⟨hr, by decide +kernel, fun h => ?_⟩
  have hs := (h lateOps lateOps [] (by simp)).1
  unfold SameObject at hs
  rw [hr] at hs
  have := hs ⟨1, ⟨1, 2, 20⟩, 0⟩ (by simp) ⟨1, ⟨1, 2, 20⟩, 2⟩ (by simp) rfl rfl
  simp at this

end OwlMux.Writer.Registry
