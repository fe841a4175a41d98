/-
The lifecycle of a Machine (`spec/03-relay-enrollment-and-transport.md`): which rows of the five tables go with it, and what no
transaction ever takes back.

- `Shape`: the rows of one Machine that its lifecycle allows; `Sound`: the constraints, and every Machine in shape;
- `Grows`: Machines stay and move along the edges of the lifecycle, epochs do not decrease, a host key stays; attempts keep
  their identity and consumed tokens stay consumed.

For every transaction: when it commits on sound rows, the rows it leaves are sound and have grown.
-/
import Mathlib.Tactic
import OwlMux.Machines.Effects

namespace OwlMux.Machines

open OwlMux.Relay (Uuid Text RelayError RouteIdentity)
open OwlMux.Cluster (Config Lifecycle checkedSucc i64Max OwnerExpectation)
open OwlMux.Table

/-! ## Shapes -/

/-- the rows in force that go with a lifecycle -/
def Phase (r : MachineRow) (issued : List EnrollmentRow) (verifying : List AttemptRow) (bound : List BindingRow) : Prop :=
  match r.lifecycle with
  | .pending => verifying = [] ∧ bound = []
  | .verifying => issued = [] ∧
      ((∃ a, verifying = [a] ∧ a.routeRevision = r.routeRevision ∧ bound = []) ∨
        (verifying = [] ∧ ∃ b, bound = [b] ∧ b.routeRevision = r.routeRevision ∧ r.hostIdentity.isSome = true))
  | .active => issued = [] ∧ verifying = [] ∧
      ∃ b, bound = [b] ∧ b.routeRevision = r.routeRevision ∧ r.hostIdentity.isSome = true
  | .disabled => issued = [] ∧ verifying = [] ∧ bound = []

/-- the owner row has the Machine's revision; only an active Machine is owned -/
def Owned (r : MachineRow) (owner : Option OwnerRow) : Prop :=
  ∃ o, owner = some o ∧ o.routeRevision = r.routeRevision ∧ (r.lifecycle ≠ .active → o.owner = none)

def Shape (db : Db) (m : Uuid) (r : MachineRow) : Prop :=
  Owned r (ownerIn db.owners m) ∧ Phase r (issuedIn db.enrollments m) (verifyingIn db.attempts m) (boundIn db.bindings m)

structure Sound (db : Db) : Prop where
  valid : db.Valid
  shape : ∀ m r, machineIn db.machines m = some r → Shape db m r

/-! ## What is never taken back -/

/-- an edge of the lifecycle, or none; the revision counts the departures from active -/
def Edge (r r' : MachineRow) : Prop :=
  (r'.lifecycle = r.lifecycle ∧ r'.routeRevision = r.routeRevision) ∨
  (r.lifecycle = .pending ∧ r'.lifecycle = .verifying ∧ r'.routeRevision = r.routeRevision) ∨
  (r.lifecycle = .verifying ∧ (r'.lifecycle = .pending ∨ r'.lifecycle = .active) ∧ r'.routeRevision = r.routeRevision) ∨
  (r.lifecycle = .active ∧ (r'.lifecycle = .pending ∨ r'.lifecycle = .disabled) ∧ r'.routeRevision = r.routeRevision + 1) ∨
  (r.lifecycle = .disabled ∧ r'.lifecycle = .pending ∧ r'.routeRevision = r.routeRevision)

structure Move (r r' : MachineRow) : Prop where
  edge : Edge r r'
  host : r'.hostIdentity = r.hostIdentity ∨ (r.hostIdentity = none ∧ r.lifecycle = .verifying ∧ r'.lifecycle = .verifying)

structure Grows (db db' : Db) : Prop where
  machines : ∀ m r, machineIn db.machines m = some r → ∃ r', machineIn db'.machines m = some r' ∧ Move r r'
  owners : ∀ m o, ownerIn db.owners m = some o → ∃ o', ownerIn db'.owners m = some o' ∧ o.connectionEpoch ≤ o'.connectionEpoch
  attempts : ∀ a ∈ db.attempts, ∃ a' ∈ db'.attempts, a'.id = a.id ∧ a'.machineId = a.machineId ∧
    a'.routeRevision = a.routeRevision
  enrollments : ∀ e ∈ db.enrollments, ∃ e' ∈ db'.enrollments, e'.tokenDigest = e.tokenDigest ∧
    (e.status = .consumed → e'.status = .consumed)

variable {db db' : Db} {n : Node} {now : Clock} {m m₀ : Uuid}

theorem Move.refl (r : MachineRow) : Move r r := ⟨.inl ⟨rfl, rfl⟩, .inl rfl⟩

theorem Grows.refl (db : Db) : Grows db db where
  machines _ r h := ⟨r, h, Move.refl r⟩
  owners _ o h := ⟨o, h, le_rfl⟩
  attempts a h := ⟨a, h, rfl, rfl, rfl⟩
  enrollments e h := ⟨e, h, rfl, id⟩

/-! ## Statements that touch one Machine -/

theorem machineIn_update_of_ne {p : MachineRow → Bool} {f : MachineRow → MachineRow} {t : List MachineRow}
    (hf : ∀ r, (f r).id = r.id) (hp : ∀ r, p r = true → r.id = m₀) (hm : m ≠ m₀) :
    machineIn (update p f t) m = machineIn t m := by
  rw [machineIn_update hf]
  cases hr : machineIn t m with
  | none => rfl
  | some r =>
    have hid := (mem_machineIn hr).2
    have : p r = false := by
      by_contra hpr
      exact hm (hid ▸ hp r (by simpa using hpr))
    simp [this]

theorem ownerIn_update_of_ne {p : OwnerRow → Bool} {f : OwnerRow → OwnerRow} {t : List OwnerRow}
    (hf : ∀ r, (f r).machineId = r.machineId) (hp : ∀ r, p r = true → r.machineId = m₀) (hm : m ≠ m₀) :
    ownerIn (update p f t) m = ownerIn t m := by
  rw [ownerIn_update hf]
  cases hr : ownerIn t m with
  | none => rfl
  | some r =>
    have hid := (mem_ownerIn hr).2
    have : p r = false := by
      by_contra hpr
      exact hm (hid ▸ hp r (by simpa using hpr))
    simp [this]

theorem filter_not_eq_self {α : Type} {p : α → Bool} {l : List α} (h : ∀ a ∈ l, p a = false) : (l.filter fun a => !p a) = l :=
  List.filter_eq_self.2 fun a ha => by simp [h a ha]

theorem issuedIn_update_of_ne {p : EnrollmentRow → Bool} {f : EnrollmentRow → EnrollmentRow} {t : List EnrollmentRow}
    (hf : ∀ r, (f r).status ≠ .issued) (hp : ∀ r ∈ t, p r = true → r.machineId = m₀) (hm : m ≠ m₀) :
    issuedIn (update p f t) m = issuedIn t m := by
  rw [issuedIn_update hf]
  refine filter_not_eq_self fun r hr => ?_
  obtain ⟨hr, -, hid⟩ := mem_issuedIn.1 hr
  by_contra hpr
  exact hm (hid ▸ hp r hr (by simpa using hpr))

theorem verifyingIn_update_of_ne {p : AttemptRow → Bool} {f : AttemptRow → AttemptRow} {t : List AttemptRow}
    (hf : ∀ r, (f r).status ≠ .verifying) (hp : ∀ r ∈ t, p r = true → r.machineId = m₀) (hm : m ≠ m₀) :
    verifyingIn (update p f t) m = verifyingIn t m := by
  rw [verifyingIn_update hf]
  refine filter_not_eq_self fun r hr => ?_
  obtain ⟨hr, -, hid⟩ := mem_verifyingIn.1 hr
  by_contra hpr
  exact hm (hid ▸ hp r hr (by simpa using hpr))

theorem boundIn_update_of_ne {p : BindingRow → Bool} {f : BindingRow → BindingRow} {t : List BindingRow}
    (hf : ∀ r, (f r).active = false) (hp : ∀ r ∈ t, p r = true → r.machineId = m₀) (hm : m ≠ m₀) :
    boundIn (update p f t) m = boundIn t m := by
  rw [boundIn_update hf]
  refine filter_not_eq_self fun r hr => ?_
  obtain ⟨hr, -, hid⟩ := mem_boundIn.1 hr
  by_contra hpr
  exact hm (hid ▸ hp r hr (by simpa using hpr))

/-- the rows of a Machine after an UPDATE of Machines: the old one, or its image -/
theorem machineIn_update_eq_some {p : MachineRow → Bool} {f : MachineRow → MachineRow} {t : List MachineRow} {r' : MachineRow}
    (hf : ∀ r, (f r).id = r.id) (h : machineIn (update p f t) m = some r') :
    ∃ r, machineIn t m = some r ∧ ((p r = true ∧ r' = f r) ∨ (p r = false ∧ r' = r)) := by
  rw [machineIn_update hf] at h
  obtain ⟨r, hr, rfl⟩ := Option.map_eq_some_iff.1 h
  refine ⟨r, hr, ?_⟩
  cases hp : p r <;> simp

theorem attempts_update_grow {p : AttemptRow → Bool} {f : AttemptRow → AttemptRow} {t : List AttemptRow}
    (hf : ∀ a, (f a).id = a.id ∧ (f a).machineId = a.machineId ∧ (f a).routeRevision = a.routeRevision) :
    ∀ a ∈ t, ∃ a' ∈ update p f t, a'.id = a.id ∧ a'.machineId = a.machineId ∧ a'.routeRevision = a.routeRevision := by
  intro a ha
  refine ⟨if p a then f a else a, List.mem_map_of_mem ha, ?_⟩
  split_ifs
  · exact hf a
  · exact ⟨rfl, rfl, rfl⟩

theorem enrollments_update_grow {p : EnrollmentRow → Bool} {f : EnrollmentRow → EnrollmentRow} {t : List EnrollmentRow}
    (hf : ∀ e, p e = true → (f e).tokenDigest = e.tokenDigest ∧ (e.status = .consumed → (f e).status = .consumed)) :
    ∀ e ∈ t, ∃ e' ∈ update p f t, e'.tokenDigest = e.tokenDigest ∧ (e.status = .consumed → e'.status = .consumed) := by
  intro e he
  refine ⟨if p e then f e else e, List.mem_map_of_mem he, ?_⟩
  split_ifs with hp
  · exact hf e hp
  · exact ⟨rfl, id⟩

theorem machines_update_grow {p : MachineRow → Bool} {f : MachineRow → MachineRow} {t : List MachineRow}
    (hf : ∀ r, (f r).id = r.id) (hmove : ∀ r ∈ t, p r = true → Move r (f r)) :
    ∀ m r, machineIn t m = some r → ∃ r', machineIn (update p f t) m = some r' ∧ Move r r' := by
  intro m r hr
  refine ⟨if p r then f r else r, by rw [machineIn_update hf, hr]; rfl, ?_⟩
  split_ifs with hp
  · exact hmove r (mem_machineIn hr).1 hp
  · exact Move.refl r

theorem owners_update_grow {p : OwnerRow → Bool} {f : OwnerRow → OwnerRow} {t : List OwnerRow}
    (hf : ∀ r, (f r).machineId = r.machineId) (hle : ∀ o ∈ t, p o = true → o.connectionEpoch ≤ (f o).connectionEpoch) :
    ∀ m o, ownerIn t m = some o → ∃ o', ownerIn (update p f t) m = some o' ∧ o.connectionEpoch ≤ o'.connectionEpoch := by
  intro m o ho
  refine ⟨if p o then f o else o, by rw [ownerIn_update hf, ho]; rfl, ?_⟩
  split_ifs with hp
  · exact hle o (mem_ownerIn ho).1 hp
  · exact le_rfl

/-! ## Enrollment -/

/-- the token that is accepted is the only one issued to its Machine -/
theorem issuedIn_eq_singleton (hv : db.Valid) {e : EnrollmentRow} (he : e ∈ db.enrollments) (hs : e.status = .issued) :
    issuedIn db.enrollments e.machineId = [e] := by
  have hmem : e ∈ issuedIn db.enrollments e.machineId := mem_issuedIn.2 ⟨he, hs, rfl⟩
  rcases UniqueOn.filter_key hv.enrollments.2.2 e.machineId with h | ⟨a, h⟩
  · rw [issuedIn, h] at hmem
    simp at hmem
  · rw [issuedIn, h] at hmem
    rw [issuedIn, h, List.mem_singleton.1 hmem]

theorem acceptToken_sound {hash : Text → Digest} {token : Text} {attemptId : Uuid} {accepted : AcceptedEnrollment} (hs : Sound db)
    (h : acceptToken hash n now token attemptId db = .ok (db', accepted)) : Sound db' ∧ Grows db db' := by
  obtain ⟨e, r, hsel, -, hv, -, hdb⟩ := acceptToken_spec h
  obtain ⟨⟨he, -, hei, -⟩, hr, hrm, hrp⟩ := acceptable_eq_some hsel
  have hrow : machineIn db.machines r.id = some r := machineIn_eq_some hs.valid.machines hr rfl
  obtain ⟨⟨o, ho, horev, hon⟩, hphase⟩ := hs.shape r.id r hrow
  simp only [Phase, hrp] at hphase
  refine ⟨⟨hv, fun m r' hr' => ?_⟩, ?_⟩
  · subst hdb
    obtain ⟨x, hx, hcase⟩ := machineIn_update_eq_some (by intro; rfl) hr'
    -- the other Machines' tokens are not the accepted one
    have hissued : issuedIn (update (fun x => decide (x.id = e.id)) (fun x => { x with status := .consumed }) db.enrollments) m =
        if m = r.id then [] else issuedIn db.enrollments m := by
      split_ifs with hm
      · rw [issuedIn_update (by simp), hm, hrm, issuedIn_eq_singleton hs.valid he hei]
        simp
      · refine issuedIn_update_of_ne (by simp) (fun x hx hid => ?_) (hrm ▸ hm)
        exact congrArg _ (UniqueOn.eq hs.valid.enrollments.1 hx he rfl rfl (by simpa using hid))
    have hver : verifyingIn (⟨attemptId, r.id, e.id, some n.incarnationId, r.routeRevision, .verifying,
        now 2 + enrollmentAttemptSeconds⟩ :: db.attempts) m =
        if m = r.id then [⟨attemptId, r.id, e.id, some n.incarnationId, r.routeRevision, .verifying,
          now 2 + enrollmentAttemptSeconds⟩] else verifyingIn db.attempts m := by
      split_ifs with hm
      · subst hm
        have := hphase.1
        simp only [verifyingIn] at this ⊢
        rw [List.filter_cons, this]
        simp
      · simp [verifyingIn, Ne.symm hm]
    simp only [Shape, hissued, hver]
    rcases hcase with ⟨hp, rfl⟩ | ⟨hp, rfl⟩
    · obtain rfl : m = r.id := by rw [← (mem_machineIn hx).2]; simpa using hp
      obtain rfl : r = x := Option.some.inj (hrow.symm.trans hx)
      refine ⟨⟨o, ho, horev, fun _ => hon (by simp [hrp])⟩, ?_⟩
      simp [Phase, hphase.2]
    · have hm : m ≠ r.id := by
        rw [← (mem_machineIn hx).2]
        simpa using hp
      rw [if_neg hm, if_neg hm]
      exact hs.shape m r' hx
  · subst hdb
    refine ⟨machines_update_grow (by intro; rfl) fun x hx hp => ?_, fun _ o h => ⟨o, h, le_rfl⟩,
      fun a ha => ⟨a, List.mem_cons_of_mem _ ha, rfl, rfl, rfl⟩, enrollments_update_grow fun x _ => ⟨rfl, fun _ => rfl⟩⟩
    obtain rfl : x = r := UniqueOn.eq hs.valid.machines.1 hx hr rfl rfl (by simpa using hp)
    exact ⟨.inr (.inl ⟨hrp, rfl, rfl⟩), .inl rfl⟩

/-- a Machine with an attempt that runs is being verified, and the attempt is all it has -/
theorem shape_of_verifying (hs : Sound db) {a : AttemptRow} (ha : a ∈ db.attempts) (hv : a.status = .verifying) :
    ∃ r, machineIn db.machines a.machineId = some r ∧ r.lifecycle = .verifying ∧ issuedIn db.enrollments a.machineId = [] ∧
      verifyingIn db.attempts a.machineId = [a] ∧ a.routeRevision = r.routeRevision ∧ boundIn db.bindings a.machineId = [] := by
  have hmem : a ∈ verifyingIn db.attempts a.machineId := mem_verifyingIn.2 ⟨ha, hv, rfl⟩
  obtain ⟨r, hr, hid⟩ := List.mem_map.1 (hs.valid.linked.2.2.1 a ha).1
  have hrow := machineIn_eq_some hs.valid.machines hr hid
  have hphase := (hs.shape _ r hrow).2
  refine ⟨r, hrow, ?_⟩
  cases hl : r.lifecycle with
  | pending => simp [Phase, hl] at hphase; simp [hphase.1] at hmem
  | active => simp [Phase, hl] at hphase; simp [hphase.2.1] at hmem
  | disabled => simp [Phase, hl] at hphase; simp [hphase.2.1] at hmem
  | verifying =>
    simp only [Phase, hl] at hphase
    obtain ⟨hi, ⟨x, hx, hrev, hb⟩ | ⟨hx, -⟩⟩ := hphase
    · rw [hx] at hmem
      obtain rfl := List.mem_singleton.1 hmem
      exact ⟨rfl, hi, hx, hrev, hb⟩
    · simp [hx] at hmem

theorem activate_sound {isEd25519 : Text → Bool} {accepted : AcceptedEnrollment} {bindingId relayId : Uuid}
    {publicKey : List UInt8} {hostIdentity : Text} (hs : Sound db)
    (h : activate isEd25519 n now accepted bindingId relayId publicKey hostIdentity db = .ok db') : Sound db' ∧ Grows db db' := by
  obtain ⟨-, hact, -, hpin, hv, hdb⟩ := activate_spec h
  obtain ⟨a, ha, ⟨haid, ham, hav, -, -⟩, -⟩ := activatable_eq_true hact
  obtain ⟨r, hrow, hrl, hi, hver, hrev, hb⟩ := shape_of_verifying hs ha hav
  rw [ham] at hrow hi hver hb
  obtain ⟨hr, hrid⟩ := mem_machineIn hrow
  -- the Machine whose host key is set is the attempt's
  have hpr : pinnable accepted hostIdentity r = true := by
    obtain ⟨x, hx, hpx⟩ := List.countP_pos_iff.1 (by rw [← affected, hpin]; exact one_pos)
    have hxid : x.id = accepted.machineId := by simp [pinnable] at hpx; exact hpx.1.1.1
    rwa [show r = x from UniqueOn.eq hs.valid.machines.1 hr hx rfl rfl (hrid.trans hxid.symm)]
  have hrrev : r.routeRevision = accepted.routeRevision := by simp [pinnable] at hpr; exact hpr.1.2
  have hpid : ∀ x, pinnable accepted hostIdentity x = true → x.id = accepted.machineId := by
    intro x hx
    simp [pinnable] at hx
    exact hx.1.1.1
  have hattempt : ∀ x ∈ db.attempts, decide (x.id = accepted.attemptId) = true → x.machineId = accepted.machineId := by
    intro x hx hid
    rw [show x = a from UniqueOn.eq hs.valid.attempts.1 hx ha rfl rfl (by simpa [haid] using hid), ham]
  refine ⟨⟨hv, fun m r' hr' => ?_⟩, ?_⟩
  · subst hdb
    obtain ⟨x, hx, hcase⟩ := machineIn_update_eq_some (by intro; rfl) hr'
    by_cases hm : m = accepted.machineId
    · subst hm
      obtain rfl : r = x := Option.some.inj (hrow.symm.trans hx)
      obtain rfl : r' = { r with hostIdentity := r.hostIdentity.or (some hostIdentity) } := by
        rcases hcase with ⟨-, h'⟩ | ⟨hp, -⟩
        · exact h'
        · simp [hp] at hpr
      obtain ⟨⟨o, ho, horev, hon⟩, -⟩ := hs.shape _ r hrow
      refine ⟨⟨o, ho, horev, hon⟩, ?_⟩
      have hver' : verifyingIn (update (fun a => decide (a.id = accepted.attemptId)) (fun a => { a with status := .activated })
          db.attempts) accepted.machineId = [] := by
        rw [verifyingIn_update (by simp), hver]
        simp [haid]
      have hbound : boundIn (⟨bindingId, accepted.machineId, relayId, publicKey, accepted.routeRevision, true⟩ :: db.bindings)
          accepted.machineId = [⟨bindingId, accepted.machineId, relayId, publicKey, accepted.routeRevision, true⟩] := by
        simp only [boundIn] at hb ⊢
        rw [List.filter_cons, hb]
        simp
      simp only [Phase, hrl, hver', hbound]
      refine ⟨hi, .inr ⟨trivial, _, rfl, hrrev.symm, ?_⟩⟩
      cases r.hostIdentity <;> rfl
    · have hx' : r' = x := by
        rcases hcase with ⟨hp, -⟩ | ⟨-, h'⟩
        · exact (hm (by rw [← (mem_machineIn hx).2]; exact hpid x hp)).elim
        · exact h'
      subst hx'
      have hbound : boundIn (⟨bindingId, accepted.machineId, relayId, publicKey, accepted.routeRevision, true⟩ :: db.bindings) m =
          boundIn db.bindings m := by
        simp [boundIn, Ne.symm hm]
      simp only [Shape, verifyingIn_update_of_ne (f := fun a => { a with status := .activated }) (by simp) hattempt hm, hbound]
      exact hs.shape m r' hx
  · subst hdb
    refine ⟨machines_update_grow (by intro; rfl) fun x hx hp => ⟨.inl ⟨rfl, rfl⟩, ?_⟩, fun _ o h => ⟨o, h, le_rfl⟩,
      attempts_update_grow fun _ => ⟨rfl, rfl, rfl⟩, fun e he => ⟨e, he, rfl, id⟩⟩
    simp [pinnable] at hp
    rcases hp.2 with h0 | h0
    · exact .inr ⟨h0, hp.1.1.2, hp.1.1.2⟩
    · exact .inl (by simp [h0])

/-- what ending attempts does: Machines that were being verified may be pending again -/
structure Ends (db db' : Db) : Prop where
  machines : ∀ m r, machineIn db.machines m = some r → machineIn db'.machines m = some r ∨
    (r.lifecycle = .verifying ∧ machineIn db'.machines m = some { r with lifecycle := .pending })
  owners : db'.owners = db.owners
  attempts : ∀ a ∈ db.attempts, ∃ a' ∈ db'.attempts, a'.id = a.id ∧ a'.machineId = a.machineId ∧
    a'.routeRevision = a.routeRevision
  enrollments : db'.enrollments = db.enrollments
  bindings : db'.bindings = db.bindings

theorem Ends.refl (db : Db) : Ends db db := ⟨fun _ _ h => .inl h, rfl, fun a h => ⟨a, h, rfl, rfl, rfl⟩, rfl, rfl⟩

theorem Ends.trans {db₁ db₂ db₃ : Db} (h : Ends db₁ db₂) (h' : Ends db₂ db₃) : Ends db₁ db₃ := by
  refine ⟨fun m r hr => ?_, h'.owners.trans h.owners, fun a ha => ?_, h'.enrollments.trans h.enrollments,
    h'.bindings.trans h.bindings⟩
  · rcases h.machines m r hr with h1 | ⟨hl, h1⟩
    · exact h'.machines m r h1
    · rcases h'.machines m _ h1 with h2 | ⟨hp, -⟩
      · exact .inr ⟨hl, h2⟩
      · simp at hp
  · obtain ⟨a₂, ha₂, h1, h2, h3⟩ := h.attempts a ha
    obtain ⟨a₃, ha₃, h1', h2', h3'⟩ := h'.attempts a₂ ha₂
    exact ⟨a₃, ha₃, h1'.trans h1, h2'.trans h2, h3'.trans h3⟩

theorem Ends.grows (h : Ends db db') : Grows db db' := by
  refine ⟨fun m r hr => ?_, fun m o ho => ⟨o, by rw [h.owners, ho], le_rfl⟩, h.attempts,
    fun e he => ⟨e, by rw [h.enrollments]; exact he, rfl, id⟩⟩
  rcases h.machines m r hr with h1 | ⟨hl, h1⟩
  · exact ⟨r, h1, Move.refl r⟩
  · exact ⟨_, h1, .inr (.inr (.inl ⟨hl, .inl rfl, rfl⟩)), .inl rfl⟩

/-- the rows after an attempt of `mid` was ended: `fail_attempt` and a turn of `recover_expired_attempts` -/
def Db.ended (db : Db) (attemptId : Uuid) (q : MachineRow → Bool) (audit : List AuditRow) : Db :=
  { db with
    attempts := update (failing attemptId) AttemptRow.fail db.attempts
    machines := if affected (failing attemptId) db.attempts = 1 then update q (fun r => { r with lifecycle := .pending }) db.machines
      else db.machines
    audit := audit }

theorem ended_sound {attemptId mid : Uuid} {revision : ℤ} {q : MachineRow → Bool} {audit : List AuditRow} (hs : Sound db)
    (hknown : ∃ a ∈ db.attempts, a.id = attemptId ∧ a.machineId = mid ∧ a.routeRevision = revision)
    (hq : ∀ r, q r = true → r.id = mid ∧ r.lifecycle = .verifying)
    (hq' : ∀ r, r.id = mid → r.lifecycle = .verifying → r.routeRevision = revision → boundIn db.bindings mid = [] → q r = true)
    (hv : (db.ended attemptId q audit).Valid) : Sound (db.ended attemptId q audit) ∧ Ends db (db.ended attemptId q audit) := by
  obtain ⟨a, ha, rfl, rfl, rfl⟩ := hknown
  have hone : ∀ x ∈ db.attempts, failing a.id x = true → x = a := fun x hx hp =>
    UniqueOn.eq hs.valid.attempts.1 hx ha rfl rfl (by simp [failing] at hp; exact hp.1)
  have hmach : ∀ x ∈ db.attempts, failing a.id x = true → x.machineId = a.machineId := fun x hx hp => by rw [hone x hx hp]
  refine ⟨⟨hv, fun m r' hr' => ?_⟩, ?_⟩
  · simp only [Db.ended] at hr' ⊢
    by_cases hc : affected (failing a.id) db.attempts = 1
    · -- the attempt runs, so its Machine is being verified and goes back to pending
      obtain ⟨x, hx, hpx⟩ := List.countP_pos_iff.1 (by rw [← affected, hc]; exact one_pos)
      obtain rfl := hone x hx hpx
      have hav : x.status = .verifying := by simp [failing] at hpx; exact hpx
      obtain ⟨r, hrow, hrl, hi, hver, hrev, hb⟩ := shape_of_verifying hs hx hav
      have hqr := hq' r (mem_machineIn hrow).2 hrl hrev.symm hb
      rw [if_pos hc] at hr'
      obtain ⟨y, hy, hcase⟩ := machineIn_update_eq_some (by intro; rfl) hr'
      by_cases hm : m = x.machineId
      · subst hm
        obtain rfl : r = y := Option.some.inj (hrow.symm.trans hy)
        obtain rfl : r' = { r with lifecycle := .pending } := by
          rcases hcase with ⟨-, h'⟩ | ⟨hp, -⟩
          · exact h'
          · simp [hp] at hqr
        obtain ⟨⟨o, ho, horev, hon⟩, -⟩ := hs.shape _ r hrow
        refine ⟨⟨o, ho, horev, fun _ => hon (by simp [hrl])⟩, ?_⟩
        simp only [Phase, hb, verifyingIn_update (f := AttemptRow.fail) (by simp [AttemptRow.fail]), hver]
        simp [failing, hav]
      · have hy' : r' = y := by
          rcases hcase with ⟨hp, -⟩ | ⟨-, h'⟩
          · exact (hm (by rw [← (mem_machineIn hy).2]; exact (hq y hp).1)).elim
          · exact h'
        subst hy'
        simp only [Shape, verifyingIn_update_of_ne (f := AttemptRow.fail) (by simp [AttemptRow.fail]) hmach hm]
        exact hs.shape m r' hy
    · -- it had ended before, and nothing changes
      rw [if_neg hc] at hr'
      have hle := UniqueOn.affected_le_one (p := failing a.id) (x := a.id) hs.valid.attempts.1 fun x _ hp => by
        simp [failing] at hp
        exact hp.1
      have hnone : ∀ x ∈ db.attempts, failing a.id x = false := by
        have h0 : affected (failing a.id) db.attempts = 0 := by omega
        intro x hx
        by_contra hp
        exact List.countP_eq_zero.1 h0 x hx (by simpa using hp)
      have hver : verifyingIn (update (failing a.id) AttemptRow.fail db.attempts) m = verifyingIn db.attempts m := by
        rw [verifyingIn_update (by simp [AttemptRow.fail])]
        exact filter_not_eq_self fun x hx => hnone x (mem_verifyingIn.1 hx).1
      simp only [Shape, hver]
      exact hs.shape m r' hr'
  · refine ⟨fun m r hr => ?_, rfl, attempts_update_grow fun _ => ⟨rfl, rfl, rfl⟩, rfl, rfl⟩
    simp only [Db.ended]
    split_ifs
    · rw [machineIn_update (by intro; rfl), hr]
      cases hqr : q r with
      | true => exact .inr ⟨(hq r hqr).2, by simp [hqr]⟩
      | false => exact .inl (by simp [hqr])
    · exact .inl hr

/-- what `accept_token` returned, or the batch of a recovery, describes an attempt -/
def Known (db : Db) (attemptId machineId : Uuid) (revision : ℤ) : Prop :=
  ∃ a ∈ db.attempts, a.id = attemptId ∧ a.machineId = machineId ∧ a.routeRevision = revision

theorem Known.grows {attemptId machineId : Uuid} {revision : ℤ} (h : Known db attemptId machineId revision)
    (hg : Grows db db') : Known db' attemptId machineId revision := by
  obtain ⟨a, ha, rfl, rfl, rfl⟩ := h
  exact hg.attempts a ha

theorem failAttempt_sound {accepted : AcceptedEnrollment} (hs : Sound db)
    (hk : Known db accepted.attemptId accepted.machineId accepted.routeRevision) (h : failAttempt n now accepted db = .ok db') :
    Sound db' ∧ Grows db db' := by
  obtain ⟨-, hv, hdb⟩ := failAttempt_spec h
  have hdb' : db' = db.ended accepted.attemptId (fun r => decide (r.id = accepted.machineId) && decide (r.lifecycle = .verifying) &&
      decide (r.routeRevision = accepted.routeRevision)) db.audit := hdb
  rw [hdb'] at hv ⊢
  refine (ended_sound hs hk (fun r hr => ?_) (fun r h1 h2 h3 _ => by simp [h1, h2, h3]) hv).imp_right Ends.grows
  simp only [Bool.and_eq_true, decide_eq_true_eq] at hr
  exact hr.1

theorem recoverAttempt_sound {row : AttemptRow} (hs : Sound db) (hk : Known db row.id row.machineId row.routeRevision)
    (h : recoverAttempt db row = .ok db') : Sound db' ∧ Ends db db' := by
  obtain ⟨hv, audit, hdb⟩ := recoverAttempt_spec h
  have hdb' : db' = db.ended row.id (fun r => decide (r.id = row.machineId) && decide (r.lifecycle = .verifying) &&
      decide (r.routeRevision = row.routeRevision) && unbound db row) audit := hdb
  rw [hdb'] at hv ⊢
  refine ended_sound hs hk (fun r hr => ?_) (fun r h1 h2 h3 hb => ?_) hv
  · simp only [Bool.and_eq_true, decide_eq_true_eq] at hr
    exact hr.1.1
  · have : unbound db row = true := by
      simp only [unbound, Bool.not_eq_true', List.any_eq_false, Bool.and_eq_true, decide_eq_true_eq]
      rintro b hb' ⟨⟨hbm, -⟩, hba⟩
      have : b ∈ boundIn db.bindings row.machineId := mem_boundIn.2 ⟨hb', hba, hbm⟩
      simp [hb] at this
    simp [h1, h2, h3, this]

/-- the batch of a recovery, row by row -/
theorem recoverAttempts_sound (rows : List AttemptRow) (hs : Sound db)
    (hk : ∀ row ∈ rows, Known db row.id row.machineId row.routeRevision) (h : rows.foldlM recoverAttempt db = .ok db') :
    Sound db' ∧ Ends db db' := by
  induction rows generalizing db with
  | nil =>
    obtain rfl := pure_eq_ok.1 h
    exact ⟨hs, Ends.refl _⟩
  | cons row rows ih =>
    obtain ⟨db₁, h1, h2⟩ := bind_eq_ok.1 h
    obtain ⟨hs₁, he₁⟩ := recoverAttempt_sound hs (hk row List.mem_cons_self) h1
    obtain ⟨hs', he'⟩ := ih hs₁ (fun x hx => (hk x (List.mem_cons_of_mem _ hx)).grows he₁.grows) h2
    exact ⟨hs', he₁.trans he'⟩

theorem recoverExpiredAttempts_sound {machineId : Option Uuid} (hs : Sound db)
    (h : recoverExpiredAttempts n now machineId db = .ok db') : Sound db' ∧ Ends db db' := by
  obtain ⟨-, hfold⟩ := recoverExpiredAttempts_spec h
  refine recoverAttempts_sound _ hs (fun row hrow => ⟨row, ?_, rfl, rfl, rfl⟩) hfold
  exact (List.mem_filter.1 (List.mem_mergeSort.1 (List.mem_of_mem_take hrow))).1

/-! ## Ownership -/

theorem claimOwner_sound {connectionId : Uuid} {revision epoch : ℤ} (hs : Sound db)
    (h : claimOwner n now m₀ connectionId revision db = .ok (db', epoch)) : Sound db' ∧ Grows db db' := by
  obtain ⟨o, -, hclaim, -, rfl, hv, hdb⟩ := claimOwner_spec h
  obtain ⟨⟨ho, hom, horev⟩, ⟨r, hr, hrid, hrl, hrh, hrrev⟩, b, hb, hbm, hba, hbrev⟩ := claimable_eq_some hclaim
  have hrow := machineIn_eq_some hs.valid.machines hr hrid
  have howner := ownerIn_eq_some hs.valid.owners ho hom
  have hbmem : b ∈ boundIn db.bindings m₀ := mem_boundIn.2 ⟨hb, hba, hbm⟩
  obtain ⟨-, hphase⟩ := hs.shape m₀ r hrow
  -- a Machine with a binding in force has no attempt
  have hactive : issuedIn db.enrollments m₀ = [] ∧ verifyingIn db.attempts m₀ = [] ∧
      ∃ b, boundIn db.bindings m₀ = [b] ∧ b.routeRevision = r.routeRevision ∧ r.hostIdentity.isSome = true := by
    rcases hrl with hl | hl
    · simp only [Phase, hl] at hphase
      obtain ⟨hi, ⟨x, -, -, hnil⟩ | ⟨hx, hrest⟩⟩ := hphase
      · simp [hnil] at hbmem
      · exact ⟨hi, hx, hrest⟩
    · simpa only [Phase, hl] using hphase
  refine ⟨⟨hv, fun m r' hr' => ?_⟩, ?_⟩
  · subst hdb
    obtain ⟨x, hx, hcase⟩ := machineIn_update_eq_some (by intro; rfl) hr'
    by_cases hm : m = m₀
    · subst hm
      obtain rfl : r = x := Option.some.inj (hrow.symm.trans hx)
      have hr'' : r'.lifecycle = .active ∧ r'.routeRevision = r.routeRevision ∧ r'.hostIdentity = r.hostIdentity := by
        rcases hcase with ⟨-, rfl⟩ | ⟨hp, rfl⟩
        · exact ⟨rfl, rfl, rfl⟩
        · refine ⟨hrl.resolve_left fun hl => ?_, rfl, rfl⟩
          simp [hrid, hl, hrrev] at hp
      refine ⟨⟨{ o with connectionEpoch := o.connectionEpoch + 1, owner := some (n.incarnationId, connectionId) }, ?_, ?_, ?_⟩, ?_⟩
      · rw [ownerIn_update (by intro; rfl), howner]
        simp [hom]
      · rw [hr''.2.1, hrrev]
        exact horev
      · exact fun hne => (hne hr''.1).elim
      · simp only [Phase, hr''.1, hr''.2.1, hr''.2.2]
        exact hactive
    · have hx' : r' = x := by
        rcases hcase with ⟨hp, -⟩ | ⟨-, h'⟩
        · simp only [Bool.and_eq_true, decide_eq_true_eq] at hp
          exact (hm (by rw [← (mem_machineIn hx).2]; exact hp.1.1)).elim
        · exact h'
      subst hx'
      simp only [Shape]
      rw [ownerIn_update_of_ne (by intro; rfl) (by simp) hm]
      exact hs.shape m r' hx
  · subst hdb
    refine ⟨machines_update_grow (by intro; rfl) fun x _ hp => ?_, owners_update_grow (by intro; rfl) fun x hx hp => ?_,
      fun a ha => ⟨a, ha, rfl, rfl, rfl⟩, fun e he => ⟨e, he, rfl, id⟩⟩
    · simp only [Bool.and_eq_true, decide_eq_true_eq] at hp
      exact ⟨.inr (.inr (.inl ⟨hp.1.2, .inr rfl, rfl⟩)), .inl rfl⟩
    · obtain rfl : x = o := UniqueOn.eq hs.valid.owners.1 hx ho rfl rfl (by simpa [hom] using hp)
      simp

theorem releaseOwner_sound {connectionId : Uuid} {epoch : ℤ} (hs : Sound db)
    (h : releaseOwner n now m₀ connectionId epoch db = .ok db') : Sound db' ∧ Grows db db' := by
  obtain ⟨-, -, hv, hdb⟩ := releaseOwner_spec h
  refine ⟨⟨hv, fun m r hr => ?_⟩, ?_⟩
  · subst hdb
    obtain ⟨⟨o, ho, horev, hon⟩, hphase⟩ := hs.shape m r hr
    refine ⟨?_, hphase⟩
    refine ⟨if releasable n m₀ connectionId epoch o then { o with owner := none } else o, ?_, ?_, ?_⟩
    · rw [ownerIn_update (by intro; rfl), ho]
      rfl
    · split_ifs <;> exact horev
    · split_ifs
      · exact fun _ => rfl
      · exact hon
  · subst hdb
    exact ⟨fun _ r h => ⟨r, h, Move.refl r⟩, owners_update_grow (by intro; rfl) fun _ _ _ => le_rfl,
      fun a ha => ⟨a, ha, rfl, rfl, rfl⟩, fun e he => ⟨e, he, rfl, id⟩⟩

/-! ## What the operator asks for -/

theorem createMachine_sound {hash : Text → Digest} {input : CreateMachineInput} {machineId enrollmentId : Uuid}
    {random : List UInt8} (hs : Sound db) (h : createMachine hash n now input machineId enrollmentId random db = .ok db') :
    Sound db' ∧ Grows db db' := by
  obtain ⟨credentialId, -, hv, hdb⟩ := createMachine_spec h
  -- the id is new, and by the foreign keys no other table knows it
  have hfresh : ∀ r ∈ db.machines, r.id ≠ machineId := by
    have := hv.machines.1
    rw [hdb] at this
    exact fun r hr => Ne.symm ((uniqueOn_cons.1 this).1 r hr rfl rfl)
  have hnot : machineId ∉ db.machines.map MachineRow.id := fun hmem => by
    obtain ⟨r, hr, hid⟩ := List.mem_map.1 hmem
    exact hfresh r hr hid
  have hlink := hs.valid.linked
  have hissued : ∀ m ≠ machineId, issuedIn db'.enrollments m = issuedIn db.enrollments m := by
    intro m hm
    rw [hdb]
    simp [issuedIn, Ne.symm hm]
  have hmachine : ∀ m ≠ machineId, machineIn db'.machines m = machineIn db.machines m := by
    intro m hm
    rw [hdb]
    simp [machineIn, Ne.symm hm]
  have howner : ∀ m ≠ machineId, ownerIn db'.owners m = ownerIn db.owners m := by
    intro m hm
    rw [hdb]
    simp [ownerIn, Ne.symm hm]
  refine ⟨⟨hv, fun m r hr => ?_⟩, ⟨fun m r hr => ?_, fun m o ho => ?_, ?_, ?_⟩⟩
  · by_cases hm : m = machineId
    · subst hm
      subst hdb
      obtain rfl : r = _ := by simpa [machineIn] using hr.symm
      refine ⟨⟨⟨m, 0, none, 1⟩, by simp [ownerIn], rfl, fun _ => rfl⟩, ?_, ?_⟩
      · refine List.filter_eq_nil_iff.2 fun a ha hp => hnot ?_
        simp only [Bool.and_eq_true, decide_eq_true_eq] at hp
        exact hp.2 ▸ (hlink.2.2.1 a ha).1
      · refine List.filter_eq_nil_iff.2 fun b hb hp => hnot ?_
        simp only [Bool.and_eq_true, decide_eq_true_eq] at hp
        exact hp.2 ▸ hlink.2.2.2.1 b hb
    · rw [hmachine m hm] at hr
      have hshape := hs.shape m r hr
      simp only [Shape, hissued m hm, howner m hm]
      rw [hdb]
      exact hshape
  · have hm : m ≠ machineId := fun hm => hfresh r (mem_machineIn hr).1 ((mem_machineIn hr).2.trans hm)
    exact ⟨r, by rw [hmachine m hm, hr], Move.refl r⟩
  · have hm : m ≠ machineId := fun hm => hnot (by
      obtain ⟨h1, h2⟩ := mem_ownerIn ho
      exact hm ▸ h2 ▸ (hlink.2.2.2.2 o h1).1)
    exact ⟨o, by rw [howner m hm, ho], le_rfl⟩
  · rw [hdb]
    exact fun a ha => ⟨a, ha, rfl, rfl, rfl⟩
  · rw [hdb]
    exact fun e he => ⟨e, List.mem_cons_of_mem _ he, rfl, id⟩

/-- a transaction on enrollments that issues only to pending Machines -/
theorem enrollments_sound {t : List EnrollmentRow} {audit : List AuditRow} (hs : Sound db)
    (hv : Db.Valid { db with enrollments := t, audit := audit })
    (hissued : ∀ m r, machineIn db.machines m = some r → r.lifecycle ≠ .pending → issuedIn db.enrollments m = [] →
      issuedIn t m = [])
    (hgrow : ∀ e ∈ db.enrollments, ∃ e' ∈ t, e'.tokenDigest = e.tokenDigest ∧ (e.status = .consumed → e'.status = .consumed)) :
    Sound { db with enrollments := t, audit := audit } ∧ Grows db { db with enrollments := t, audit := audit } := by
  refine ⟨⟨hv, fun m r hr => ?_⟩, fun _ r h => ⟨r, h, Move.refl r⟩, fun _ o h => ⟨o, h, le_rfl⟩,
    fun a ha => ⟨a, ha, rfl, rfl, rfl⟩, hgrow⟩
  obtain ⟨howned, hphase⟩ := hs.shape m r hr
  refine ⟨howned, ?_⟩
  have hkeep := hissued m r hr
  cases hl : r.lifecycle <;> simp only [Phase, hl] at hphase hkeep ⊢
  · exact hphase
  · exact ⟨hkeep (by simp) hphase.1, hphase.2⟩
  · exact ⟨hkeep (by simp) hphase.1, hphase.2⟩
  · exact ⟨hkeep (by simp) hphase.1, hphase.2⟩

theorem cancel_grow (m : Uuid) (t : List EnrollmentRow) : ∀ e ∈ t, ∃ e' ∈ update (cancellable m) EnrollmentRow.cancel t,
    e'.tokenDigest = e.tokenDigest ∧ (e.status = .consumed → e'.status = .consumed) := by
  refine enrollments_update_grow fun e hp => ⟨rfl, fun hc => ?_⟩
  simp [cancellable, hc] at hp

theorem issuedIn_cancel {t : List EnrollmentRow} (h : issuedIn t m = []) :
    issuedIn (update (cancellable m₀) EnrollmentRow.cancel t) m = [] := by
  rw [issuedIn_update (by simp [EnrollmentRow.cancel]), h]
  rfl

theorem issueEnrollmentToken_sound {hash : Text → Digest} {enrollmentId : Uuid} {random : List UInt8} (hs : Sound db)
    (h : issueEnrollmentToken hash n now m₀ enrollmentId random db = .ok db') : Sound db' ∧ Grows db db' := by
  obtain ⟨hp, hv, rfl⟩ := issueEnrollmentToken_spec h
  refine enrollments_sound hs hv (fun m r hr hl hnil => ?_) fun e he => ?_
  · have hm : m₀ ≠ m := by
      rintro rfl
      rw [hr] at hp
      exact hl (by simpa using hp)
    have := @issuedIn_cancel m m₀ db.enrollments hnil
    simpa [issuedIn, List.filter_cons, hm] using this
  · obtain ⟨e', he', h1⟩ := cancel_grow m₀ db.enrollments e he
    exact ⟨e', List.mem_cons_of_mem _ he', h1⟩

theorem cancelEnrollmentToken_sound (hs : Sound db) (h : cancelEnrollmentToken n now m₀ db = .ok db') :
    Sound db' ∧ Grows db db' := by
  obtain ⟨hv, rfl⟩ := cancelEnrollmentToken_spec h
  exact enrollments_sound hs hv (fun _ _ _ _ hnil => issuedIn_cancel hnil) (cancel_grow m₀ db.enrollments)

/-- a transaction on Machines alone that keeps the rows in force in step -/
theorem machines_sound {p : MachineRow → Bool} {f : MachineRow → MachineRow} {audit : List AuditRow} (hs : Sound db)
    (hv : Db.Valid { db with machines := update p f db.machines, audit := audit }) (hf : ∀ r, (f r).id = r.id)
    (hphase : ∀ r issued verifying bound, p r = true → Phase r issued verifying bound → Phase (f r) issued verifying bound)
    (hown : ∀ r o, p r = true → Owned r o → Owned (f r) o) (hmove : ∀ r, p r = true → Move r (f r)) :
    Sound { db with machines := update p f db.machines, audit := audit } ∧
      Grows db { db with machines := update p f db.machines, audit := audit } := by
  refine ⟨⟨hv, fun m r' hr' => ?_⟩, machines_update_grow hf fun r _ hp => hmove r hp, fun _ o h => ⟨o, h, le_rfl⟩,
    fun a ha => ⟨a, ha, rfl, rfl, rfl⟩, fun e he => ⟨e, he, rfl, id⟩⟩
  obtain ⟨r, hr, ⟨hp, rfl⟩ | ⟨-, rfl⟩⟩ := machineIn_update_eq_some hf hr'
  · obtain ⟨howned, hph⟩ := hs.shape m r hr
    exact ⟨hown r _ hp howned, hphase r _ _ _ hp hph⟩
  · exact hs.shape m r' hr

theorem reEnrollDisabledMachine_sound (hs : Sound db) (h : reEnrollDisabledMachine n now m₀ db = .ok db') :
    Sound db' ∧ Grows db db' := by
  obtain ⟨hv, rfl⟩ := reEnrollDisabledMachine_spec h
  refine machines_sound hs hv (by intro; rfl) (fun r i v b hp hph => ?_) (fun r o hp ho => ?_) fun r hp => ?_
  · simp only [Bool.and_eq_true, decide_eq_true_eq] at hp
    simp only [Phase, hp.2] at hph ⊢
    exact hph.2
  · simp only [Bool.and_eq_true, decide_eq_true_eq] at hp
    obtain ⟨o, rfl, h1, h2⟩ := ho
    exact ⟨o, rfl, h1, fun _ => h2 (by simp [hp.2])⟩
  · simp only [Bool.and_eq_true, decide_eq_true_eq] at hp
    exact ⟨.inr (.inr (.inr (.inr ⟨hp.2, rfl, rfl⟩))), .inl rfl⟩

theorem rebindMachineCredential_sound {credentialId : Uuid} (hs : Sound db)
    (h : rebindMachineCredential n now m₀ credentialId db = .ok db') : Sound db' ∧ Grows db db' := by
  obtain ⟨r, -, -, -, hv, rfl⟩ := rebindMachineCredential_spec h
  exact machines_sound hs hv (by intro; rfl) (fun _ _ _ _ _ hph => hph) (fun _ _ _ ho => ho)
    fun _ _ => ⟨.inl ⟨rfl, rfl⟩, .inl rfl⟩

theorem transition_sound {kind : Transition} {expected : OwnerExpectation} (hs : Sound db)
    (h : commitActiveMachineTransition n now m₀ kind expected db = .ok db') : Sound db' ∧ Grows db db' := by
  obtain ⟨r, o, ⟨hr, hrid, hrl, -⟩, ⟨ho, horev, -⟩, -, -, hv, rfl⟩ := commitActiveMachineTransition_spec h
  have hrow := machineIn_eq_some hs.valid.machines hr hrid
  obtain ⟨-, hphase⟩ := hs.shape m₀ r hrow
  simp only [Phase, hrl] at hphase
  obtain ⟨hi, hver, b, hb, hbrev, -⟩ := hphase
  have hbmem := mem_boundIn.1 (hb ▸ List.mem_singleton_self b : b ∈ boundIn db.bindings m₀)
  have hpid : ∀ x, transitionMachine m₀ r.routeRevision x = true → x.id = m₀ := by
    intro x hx
    simp [transitionMachine] at hx
    exact hx.1.1
  have hoid : ∀ x, transitionOwner m₀ r.routeRevision x = true → x.machineId = m₀ := by
    intro x hx
    simp [transitionOwner] at hx
    exact hx.1
  refine ⟨⟨hv, fun m r' hr' => ?_⟩, ?_⟩
  · obtain ⟨x, hx, hcase⟩ := machineIn_update_eq_some (by intro; rfl) hr'
    by_cases hm : m = m₀
    · subst hm
      obtain rfl : r = x := Option.some.inj (hrow.symm.trans hx)
      obtain rfl : r' = { r with lifecycle := kind.lifecycle, routeRevision := r.routeRevision + 1 } := by
        rcases hcase with ⟨-, h'⟩ | ⟨hp, -⟩
        · exact h'
        · simp [transitionMachine, hrid, hrl] at hp
      have hbound : boundIn (db.transitioned m kind r.routeRevision).bindings m = [] := by
        simp only [Db.transitioned]
        rw [boundIn_update (by simp), hb]
        simp [transitionBinding, hbmem.2.1, hbmem.2.2, hbrev]
      have hverifying : verifyingIn (db.transitioned m kind r.routeRevision).attempts m = [] := by
        simp only [Db.transitioned]
        rw [verifyingIn_update (by simp [AttemptRow.fail]), hver]
        rfl
      have hissued : issuedIn (db.transitioned m kind r.routeRevision).enrollments m = [] := issuedIn_cancel hi
      refine ⟨⟨{ o with owner := none, routeRevision := r.routeRevision + 1 }, ?_, rfl, fun _ => rfl⟩, ?_⟩
      · simp only [Db.transitioned]
        rw [ownerIn_update (by intro; rfl), ho]
        simp [transitionOwner, (mem_ownerIn ho).2, horev]
      · rw [hbound, hverifying, hissued]
        cases kind <;> simp [Phase, Transition.lifecycle]
    · have hx' : r' = x := by
        rcases hcase with ⟨hp, -⟩ | ⟨-, h'⟩
        · exact (hm (by rw [← (mem_machineIn hx).2]; exact hpid x hp)).elim
        · exact h'
      subst hx'
      simp only [Shape, Db.transitioned]
      rw [ownerIn_update_of_ne (by intro; rfl) hoid hm, boundIn_update_of_ne (by simp)
        (fun x _ hx => by simp [transitionBinding] at hx; exact hx.1.1) hm,
        verifyingIn_update_of_ne (by simp [AttemptRow.fail]) (fun x _ hx => by simp at hx; exact hx.1) hm,
        issuedIn_update_of_ne (by simp [EnrollmentRow.cancel])
          (fun x _ hx => by simp [cancellable] at hx; exact hx.1) hm]
      exact hs.shape m r' hx
  · refine ⟨machines_update_grow (by intro; rfl) fun x _ hp => ?_, owners_update_grow (by intro; rfl) fun _ _ _ => le_rfl,
      attempts_update_grow fun _ => ⟨rfl, rfl, rfl⟩, cancel_grow m₀ db.enrollments⟩
    simp [transitionMachine] at hp
    refine ⟨.inr (.inr (.inr (.inl ⟨hp.1.2, ?_, by simp [hp.2]⟩))), .inl rfl⟩
    cases kind <;> simp [Transition.lifecycle]

/-! ## Credentials and nodes -/

/-- a transaction on none of the five tables -/
theorem sound_of_eq (hs : Sound db) (hv : db'.Valid) (hm : db'.machines = db.machines) (ho : db'.owners = db.owners)
    (he : db'.enrollments = db.enrollments) (ha : db'.attempts = db.attempts) (hb : db'.bindings = db.bindings) :
    Sound db' ∧ Grows db db' := by
  refine ⟨⟨hv, fun m r hr => ?_⟩, ⟨?_, ?_, ?_, ?_⟩⟩
  · rw [hm] at hr
    simp only [Shape, ho, he, ha, hb]
    exact hs.shape m r hr
  · exact fun _ r h => ⟨r, by rw [hm, h], Move.refl r⟩
  · exact fun _ o h => ⟨o, by rw [ho, h], le_rfl⟩
  · exact fun a h => ⟨a, by rw [ha]; exact h, rfl, rfl, rfl⟩
  · exact fun e h => ⟨e, by rw [he]; exact h, rfl, id⟩

theorem verifyingIn_orphan (deleted : Uuid) (t : List AttemptRow) (m : Uuid) :
    verifyingIn (t.map (AttemptRow.orphan deleted)) m = (verifyingIn t m).map (AttemptRow.orphan deleted) := by
  simp only [verifyingIn, List.filter_map]
  rfl

theorem releaseNode_sound (hs : Sound db) (h : releaseNode n db = .ok db') : Sound db' ∧ Grows db db' := by
  obtain ⟨hv, -, rfl⟩ := releaseNode_spec h
  refine ⟨⟨hv, fun m r hr => ?_⟩, fun _ r h => ⟨r, h, Move.refl r⟩, fun _ o h => ⟨o, h, le_rfl⟩,
    fun a ha => ⟨_, List.mem_map_of_mem ha, rfl, rfl, rfl⟩, fun e he => ⟨e, he, rfl, id⟩⟩
  obtain ⟨howned, hphase⟩ := hs.shape m r hr
  refine ⟨howned, ?_⟩
  rw [verifyingIn_orphan]
  -- the attempts lose their node, which no phase reads
  cases hl : r.lifecycle <;> simp only [Phase, hl, List.map_eq_nil_iff] at hphase ⊢
  · exact hphase
  · obtain ⟨hi, ⟨a, ha, hrev, hb⟩ | hright⟩ := hphase
    · exact ⟨hi, .inl ⟨a.orphan n.incarnationId, by rw [ha]; rfl, hrev, hb⟩⟩
    · exact ⟨hi, .inr hright⟩
  · exact hphase
  · exact hphase

end OwlMux.Machines
