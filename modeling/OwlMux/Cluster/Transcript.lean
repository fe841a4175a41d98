/-
The three texts the deployment signs: `signature_message` (`relay/protocol.rs`), signed by a Relay's key,
`OwnerAuthContext::transcript` and the transcript of `configuration_proof` (`cluster.rs`), both under the cluster key.

The first concatenates fields of fixed width, with an optional one in the middle, behind a label of the purpose; the others put
the length before each field.

Results:
- `message_injective`, `transcript_injective`, `configuration_injective`: each family can be read back;
- `transcripts_separate`: no text belongs to two of them.
-/
import Mathlib.Tactic
import OwlMux.Lib.Bytes
import OwlMux.Enrollment.Dialogue

namespace OwlMux.Cluster

open OwlMux.Relay (Uuid ChallengePurpose)
open OwlMux.Enrollment (uuidBytes i64Bytes label signatureMessage)
open OwlMux.Bytes

/-! ## The texts -/

/-- `str::as_bytes` -/
def asBytes (t : String) : List UInt8 := t.toByteArray.data.toList

abbrev Bytes32 := Vector UInt8 32

/-- the arguments of `signature_message` -/
structure SignatureInput where
  purpose : ChallengePurpose
  deploymentId : Uuid
  machineId : Uuid
  relayId : Uuid
  connectionId : Option Uuid
  routeRevision : Int64
  nonce : Bytes32

def SignatureInput.message (x : SignatureInput) : List UInt8 :=
  signatureMessage x.purpose x.deploymentId x.machineId x.relayId x.connectionId x.routeRevision.toInt x.nonce.toList

inductive ConnectionClass where
  | attachment
  | control
deriving DecidableEq, Repr

def ConnectionClass.label : ConnectionClass → List UInt8
  | .attachment => asBytes "attachment"
  | .control => asBytes "control"

structure OwnerAuthContext where
  deploymentId : Uuid
  configEpoch : Int64
  sourceIncarnationId : Uuid
  destinationIncarnationId : Uuid
  machineId : Uuid
  routeRevision : Int64
  connectionEpoch : Int64
  connectionClass : ConnectionClass
  challenge : Bytes32
  sourceNonce : Bytes32
  traceId : Uuid
deriving DecidableEq

def internalContractVersion : String := "owner.v1"
def internalConfigurationVersion : String := "configuration.v1"
def internalAuthTimeoutSeconds : ℕ := 5
def internalMaxFrameBytes : ℕ := 32768

/-- the fields behind the domain, in order -/
def OwnerAuthContext.fields (c : OwnerAuthContext) : List (List UInt8) :=
  [asBytes internalContractVersion, c.connectionClass.label, uuidBytes c.deploymentId, i64Bytes c.configEpoch.toInt,
    uuidBytes c.sourceIncarnationId, uuidBytes c.destinationIncarnationId, uuidBytes c.machineId,
    i64Bytes c.routeRevision.toInt, i64Bytes c.connectionEpoch.toInt, asBytes "api_key_verified", c.challenge.toList,
    c.sourceNonce.toList, uuidBytes c.traceId]

def OwnerAuthContext.transcript (c : OwnerAuthContext) : List UInt8 :=
  Enrollment.label "owlmux:owner-wss-auth:v1" ++ Bytes.fields c.fields

structure ConfigurationInput where
  deploymentId : Uuid
  configEpoch : Int64
  serverBuildId : String
  apiKeyDigest : Bytes32
  encryptionKeyDigest : Bytes32
  publicOrigin : String

def ConfigurationInput.fields (c : ConfigurationInput) : List (List UInt8) :=
  [asBytes internalConfigurationVersion, uuidBytes c.deploymentId, i64Bytes c.configEpoch.toInt, asBytes c.serverBuildId,
    c.apiKeyDigest.toList, c.encryptionKeyDigest.toList, asBytes c.publicOrigin, asBytes "exact", asBytes "3",
    asBytes "public.v1", asBytes "relay.v1", asBytes internalContractVersion, asBytes "ssh-envelope.v1",
    asBytes (toString internalAuthTimeoutSeconds), asBytes (toString internalMaxFrameBytes)]

/-- what `configuration_proof` signs -/
def ConfigurationInput.transcript (c : ConfigurationInput) : List UInt8 :=
  Enrollment.label "owlmux:cluster-configuration:v1" ++ Bytes.fields c.fields

/-- the strings are shorter than a length prefix can say -/
def ConfigurationInput.Bounded (c : ConfigurationInput) : Prop :=
  (asBytes c.serverBuildId).length < 2 ^ 32 ∧ (asBytes c.publicOrigin).length < 2 ^ 32

/-! ## Fields read back -/

theorem asBytes_inj {a b : String} (h : asBytes a = asBytes b) : a = b := by
  refine String.toByteArray_inj.1 (ByteArray.ext (Array.ext' ?_))
  exact h

theorem uuidBytes_inj {a b : Uuid} (h : uuidBytes a = uuidBytes b) : a = b :=
  BitVec.eq_of_toNat_eq (bigEndian_inj (by have := a.isLt; omega) (by have := b.isLt; omega) h)

theorem i64Bytes_inj {a b : Int64} (h : i64Bytes a.toInt = i64Bytes b.toInt) : a = b := by
  have ha := a.toInt_lt
  have ha' := a.le_toInt
  have hb := b.toInt_lt
  have hb' := b.le_toInt
  have hmod := bigEndian_inj (by omega) (by omega) h
  exact Int64.toInt_inj.1 (by omega)

@[simp]
theorem length_uuidBytes (u : Uuid) : (uuidBytes u).length = 16 := length_bigEndian ..

@[simp]
theorem length_i64Bytes (n : ℤ) : (i64Bytes n).length = 8 := length_bigEndian ..

theorem vector_inj {a b : Bytes32} (h : a.toList = b.toList) : a = b := Vector.toList_inj.1 h

theorem label_inj {a b : ConnectionClass} (h : a.label = b.label) : a = b := by
  have hne : asBytes "attachment" ≠ asBytes "control" := fun heq => absurd (asBytes_inj heq) (by decide)
  cases a with
  | attachment =>
    cases b with
    | attachment => rfl
    | control => exact (hne h).elim
  | control =>
    cases b with
    | attachment => exact (hne h.symm).elim
    | control => rfl

/-! ## Injectivity -/

/-- equal texts of fixed-width fields are equal field by field -/
theorem append_cancel {a b x y : List UInt8} (hlen : a.length = b.length) (h : a ++ x = b ++ y) : a = b ∧ x = y :=
  List.append_inj h hlen

theorem message_injective : Function.Injective SignatureInput.message := by
  intro x y h
  obtain ⟨p, d, m, k, c, r, n⟩ := x
  obtain ⟨p', d', m', k', c', r', n'⟩ := y
  have hlenn : n.toList.length = n'.toList.length := by rw [Vector.length_toList, Vector.length_toList]
  simp only [SignatureInput.message, signatureMessage, List.append_assoc, List.append_cancel_left_eq] at h
  -- the purposes differ in the first byte
  have hp : p = p' := by
    cases p <;> cases p'
    · rfl
    · exact absurd (congrArg List.head? h) (by simp [label])
    · exact absurd (congrArg List.head? h) (by simp [label])
    · rfl
  subst hp
  rw [List.append_cancel_left_eq] at h
  obtain ⟨hd, h⟩ := append_cancel (by simp) h
  obtain ⟨hm, h⟩ := append_cancel (by simp) h
  obtain ⟨hk, h⟩ := append_cancel (by simp) h
  -- the optional field shows in the length
  have hc : c = c' ∧ i64Bytes r.toInt ++ n.toList = i64Bytes r'.toInt ++ n'.toList := by
    have hlen := congrArg List.length h
    cases c with
    | none =>
      cases c' with
      | none => exact ⟨rfl, h⟩
      | some c' =>
        simp only [List.length_append, List.length_nil, length_uuidBytes, length_i64Bytes, hlenn] at hlen
        omega
    | some c =>
      cases c' with
      | none =>
        simp only [List.length_append, List.length_nil, length_uuidBytes, length_i64Bytes, hlenn] at hlen
        omega
      | some c' =>
        obtain ⟨hc, h⟩ := append_cancel (by simp) h
        exact ⟨congrArg some (uuidBytes_inj hc), h⟩
  obtain ⟨hr, hn⟩ := append_cancel (by simp) hc.2
  rw [uuidBytes_inj hd, uuidBytes_inj hm, uuidBytes_inj hk, hc.1, i64Bytes_inj hr, vector_inj hn]

theorem length_label (c : ConnectionClass) : c.label.length < 2 ^ 32 := by
  cases c with
  | attachment => decide
  | control => decide

theorem OwnerAuthContext.length_fields (c : OwnerAuthContext) : ∀ b ∈ c.fields, b.length < 2 ^ 32 := by
  have hversion : (asBytes internalContractVersion).length < 2 ^ 32 := by decide
  have hverified : (asBytes "api_key_verified").length < 2 ^ 32 := by decide
  simp only [OwnerAuthContext.fields, List.forall_mem_cons, length_uuidBytes, length_i64Bytes, Vector.length_toList, hversion,
    hverified, length_label]
  simp

theorem transcript_injective : Function.Injective OwnerAuthContext.transcript := by
  intro x y h
  have h := fields_injective x.length_fields y.length_fields (List.append_cancel_left h)
  obtain ⟨d, e, s, t, m, r, k, cls, ch, n, u⟩ := x
  obtain ⟨d', e', s', t', m', r', k', cls', ch', n', u'⟩ := y
  simp only [OwnerAuthContext.fields, List.cons.injEq, true_and, and_true] at h
  obtain ⟨hcls, hd, he, hs, ht, hm, hr, hk, hch, hn, hu⟩ := h
  rw [label_inj hcls, uuidBytes_inj hd, i64Bytes_inj he, uuidBytes_inj hs, uuidBytes_inj ht, uuidBytes_inj hm,
    i64Bytes_inj hr, i64Bytes_inj hk, vector_inj hch, vector_inj hn, uuidBytes_inj hu]

/-- the fields that are the same in every proof -/
theorem constants_short : ∀ t ∈ [internalConfigurationVersion, "exact", "3", "public.v1", "relay.v1", internalContractVersion,
    "ssh-envelope.v1", toString internalAuthTimeoutSeconds, toString internalMaxFrameBytes],
    (asBytes t).length < 2 ^ 32 := by
  decide +kernel

theorem ConfigurationInput.length_fields {c : ConfigurationInput} (h : c.Bounded) : ∀ b ∈ c.fields, b.length < 2 ^ 32 := by
  have hconst := constants_short
  simp only [List.forall_mem_cons, List.not_mem_nil, false_imp_iff, implies_true, and_true] at hconst
  simp only [ConfigurationInput.fields, List.forall_mem_cons, length_uuidBytes, length_i64Bytes, Vector.length_toList, hconst,
    h.1, h.2]
  simp

theorem configuration_injective {x y : ConfigurationInput} (hx : x.Bounded) (hy : y.Bounded)
    (h : x.transcript = y.transcript) : x = y := by
  have h := fields_injective (ConfigurationInput.length_fields hx) (ConfigurationInput.length_fields hy)
    (List.append_cancel_left h)
  obtain ⟨d, e, b, a, k, o⟩ := x
  obtain ⟨d', e', b', a', k', o'⟩ := y
  simp only [ConfigurationInput.fields, List.cons.injEq, true_and, and_true] at h
  obtain ⟨hd, he, hb, ha, hk, ho⟩ := h
  rw [uuidBytes_inj hd, i64Bytes_inj he, asBytes_inj hb, vector_inj ha, vector_inj hk, asBytes_inj ho]

/-! ## Separation -/

/-- texts behind labels that differ early are different -/
theorem separate {a b x y : List UInt8} {n : ℕ} (ha : n ≤ a.length) (hb : n ≤ b.length) (h : a.take n ≠ b.take n) :
    a ++ x ≠ b ++ y := by
  intro heq
  apply h
  have hx : (a ++ x).take n = a.take n := List.take_append_of_le_length ha
  have hy : (b ++ y).take n = b.take n := List.take_append_of_le_length hb
  rw [← hx, heq, hy]

theorem message_ne_transcript (x : SignatureInput) (c : OwnerAuthContext) : x.message ≠ c.transcript := by
  simp only [SignatureInput.message, signatureMessage, OwnerAuthContext.transcript, List.append_assoc]
  exact separate (n := 8) (by decide) (by decide) (by decide)

theorem message_ne_configuration (x : SignatureInput) (c : ConfigurationInput) : x.message ≠ c.transcript := by
  simp only [SignatureInput.message, signatureMessage, ConfigurationInput.transcript, List.append_assoc]
  exact separate (n := 8) (by decide) (by decide) (by decide)

theorem transcript_ne_configuration (x : OwnerAuthContext) (c : ConfigurationInput) : x.transcript ≠ c.transcript :=
  separate (n := 8) (by decide) (by decide) (by decide)

/-- **What is signed says what was meant.** Each of the three families is injective in everything it is computed from, the
configuration's as far as a length prefix reaches, and no text belongs to two families. -/
theorem signed_texts_injective_and_separate :
    Function.Injective SignatureInput.message ∧
      Function.Injective OwnerAuthContext.transcript ∧
      (∀ x y : ConfigurationInput, x.Bounded → y.Bounded → x.transcript = y.transcript → x = y) ∧
      (∀ (x : SignatureInput) (c : OwnerAuthContext), x.message ≠ c.transcript) ∧
      (∀ (x : SignatureInput) (c : ConfigurationInput), x.message ≠ c.transcript) ∧
      ∀ (x : OwnerAuthContext) (c : ConfigurationInput), x.transcript ≠ c.transcript := by
  refine ⟨message_injective, transcript_injective, ?_, message_ne_transcript, message_ne_configuration,
    transcript_ne_configuration⟩
  intro x y hx hy h
  exact configuration_injective hx hy h

def buildInput (build : String) : ConfigurationInput where
  deploymentId := 1
  configEpoch := 1
  serverBuildId := build
  apiKeyDigest := Vector.replicate 32 7
  encryptionKeyDigest := Vector.replicate 32 9
  publicOrigin := "https://mux.example"

/-- a second build signs another configuration -/
theorem signed_texts_two_builds :
    (buildInput "a").Bounded ∧ (buildInput "b").Bounded ∧ (buildInput "a").transcript ≠ (buildInput "b").transcript := by
  have ha : (buildInput "a").Bounded := by constructor <;> decide
  have hb : (buildInput "b").Bounded := by constructor <;> decide
  refine ⟨ha, hb, ?_⟩
  intro h
  have heq := signed_texts_injective_and_separate.2.2.1 _ _ ha hb h
  exact absurd (congrArg ConfigurationInput.serverBuildId heq) (by decide)

end OwlMux.Cluster
