/-
Authentication between two nodes (`internal.rs`, `cluster.rs`): the node that owns a Machine sends a challenge on every internal
connection, the node that dialled answers it with a tag under the cluster key over everything it asks for.

Tags are symbolic: a tag of a text, or other bytes. The network belongs to an attacker without the key, who opens connections,
hands any challenge to a node that dials, and answers a challenge with any message whose tag some node has computed (every tag is
his as soon as it is computed) or with bytes that are no tag. Challenges are fresh: no earlier connection or answer had them.

What follows a good tag (the rows of the database, the clock, the current route, the permits) only refuses, and is an argument.

Results, over every run:
- `signed_context`: a text that was signed and is the transcript of a context was signed by the dialling node of that context;
- `owner_auth_agreement`: an accepted connection has its dialling node, which answered this very challenge, after it was sent, for
  this destination, Machine, route and class; and no challenge is accepted twice.
-/
import Mathlib.Tactic
import OwlMux.Cluster.Transcript
import OwlMux.Lib.Machine
import OwlMux.Tmux.Text

namespace OwlMux.Cluster

open OwlMux.Relay (Uuid Text jsonNumber)
open OwlMux.Enrollment (decode32)
open OwlMux.Tmux (parseI64)

/-! ## Messages -/

inductive Tag where
  /-- computed under the cluster key -/
  | mac (text : List UInt8)
  | bytes (b : Bytes32)
deriving DecidableEq

/-- `owner.challenge`; its type is not looked at -/
structure Challenge where
  protocol : Text
  destinationIncarnationId : Uuid
  nonce : Text
deriving DecidableEq

/-- `owner.authenticate`; a response that is not the text of 32 bytes is `none` -/
structure Authenticate where
  messageType : Text
  sourceIncarnationId : Uuid
  destinationIncarnationId : Uuid
  machineId : Uuid
  routeRevision : Text
  connectionEpoch : Text
  connectionClass : Text
  sourceNonce : Text
  traceId : Uuid
  response : Option Tag
deriving DecidableEq

/-- `parse_epoch` -/
def parseEpoch (value : Text) : Option Int64 := do
  let parsed ← parseI64 value
  if parsed ≤ 0 ∨ value ≠ jsonNumber parsed then none else some (Int64.ofInt parsed)

/-- `decode_32` -/
def decodeNonce (value : Text) : Option Bytes32 := do
  let b ← decode32 value
  if h : b.length = 32 then some ⟨b.toArray, by rw [List.size_toArray, h]⟩ else none

def classLabel : ConnectionClass → Text
  | .attachment => "attachment".toList
  | .control => "control".toList

/-- `parse_class` -/
def parseClass (value : Text) : Option ConnectionClass :=
  if value = "attachment".toList then some .attachment else if value = "control".toList then some .control else none

/-! ## The two sides -/

/-- what a node knows of its deployment -/
structure NodeConfig where
  deploymentId : Uuid
  configEpoch : Int64

/-- a call of `connect_authenticated` that answered a challenge: its arguments, by the node that made it, and the values it took -/
structure Execution where
  sourceIncarnationId : Uuid
  machineId : Uuid
  routeRevision : Int64
  connectionEpoch : Int64
  destinationIncarnationId : Uuid
  connectionClass : ConnectionClass
  challenge : Bytes32
  sourceNonce : Bytes32
  traceId : Uuid
deriving DecidableEq

def Execution.context (config : Uuid → NodeConfig) (e : Execution) : OwnerAuthContext where
  deploymentId := (config e.sourceIncarnationId).deploymentId
  configEpoch := (config e.sourceIncarnationId).configEpoch
  sourceIncarnationId := e.sourceIncarnationId
  destinationIncarnationId := e.destinationIncarnationId
  machineId := e.machineId
  routeRevision := e.routeRevision
  connectionEpoch := e.connectionEpoch
  connectionClass := e.connectionClass
  challenge := e.challenge
  sourceNonce := e.sourceNonce
  traceId := e.traceId

/-- `owner_response` -/
def ownerResponse (context : OwnerAuthContext) : Tag := .mac context.transcript

/-- `verify_owner_response` -/
def verifyOwnerResponse (context : OwnerAuthContext) (candidate : Tag) : Bool := candidate = .mac context.transcript

/-- what the execution sends -/
def Execution.message (config : Uuid → NodeConfig) (e : Execution) : Authenticate where
  messageType := "owner.authenticate".toList
  sourceIncarnationId := e.sourceIncarnationId
  destinationIncarnationId := e.destinationIncarnationId
  machineId := e.machineId
  routeRevision := jsonNumber e.routeRevision.toInt
  connectionEpoch := jsonNumber e.connectionEpoch.toInt
  connectionClass := classLabel e.connectionClass
  sourceNonce := Base64Url.encode e.sourceNonce.toList
  traceId := e.traceId
  response := some (ownerResponse (e.context config))

/-- the arguments of `connect_authenticated`, and the node it runs on -/
structure Call where
  sourceIncarnationId : Uuid
  machineId : Uuid
  routeRevision : Int64
  connectionEpoch : Int64
  destinationIncarnationId : Uuid
  connectionClass : ConnectionClass
deriving DecidableEq

/-- `connect_authenticated` up to its answer -/
def connectAuthenticated (call : Call) (challenge : Challenge) (sourceNonce : Bytes32) (traceId : Uuid) : Option Execution :=
  if challenge.protocol ≠ "owner.v1".toList ∨ challenge.destinationIncarnationId ≠ call.destinationIncarnationId then none
  else (decodeNonce challenge.nonce).map fun bytes =>
    { sourceIncarnationId := call.sourceIncarnationId
      machineId := call.machineId
      routeRevision := call.routeRevision
      connectionEpoch := call.connectionEpoch
      destinationIncarnationId := call.destinationIncarnationId
      connectionClass := call.connectionClass
      challenge := bytes
      sourceNonce := sourceNonce
      traceId := traceId }

/-- the challenge of `accept_owner_connection` -/
def challengeOf (destination : Uuid) (challenge : Bytes32) : Challenge :=
  ⟨"owner.v1".toList, destination, Base64Url.encode challenge.toList⟩

/-- the checks of `accept_owner_connection` on the answer, at the given node -/
def checkAuthenticate (config : NodeConfig) (incarnationId : Uuid) (challenge : Bytes32) (m : Authenticate) :
    Option OwnerAuthContext := do
  let routeRevision ← parseEpoch m.routeRevision
  let connectionEpoch ← parseEpoch m.connectionEpoch
  let connectionClass ← parseClass m.connectionClass
  let sourceNonce ← decodeNonce m.sourceNonce
  let response ← m.response
  let context : OwnerAuthContext :=
    { deploymentId := config.deploymentId
      configEpoch := config.configEpoch
      sourceIncarnationId := m.sourceIncarnationId
      destinationIncarnationId := m.destinationIncarnationId
      machineId := m.machineId
      routeRevision := routeRevision
      connectionEpoch := connectionEpoch
      connectionClass := connectionClass
      challenge := challenge
      sourceNonce := sourceNonce
      traceId := m.traceId }
  if m.messageType ≠ "owner.authenticate".toList ∨ m.destinationIncarnationId ≠ incarnationId ∨
      verifyOwnerResponse context response = false then none
  else some context

/-! ## Runs -/

inductive ConnState where
  | waiting
  | closed
  | accepted (context : OwnerAuthContext)
deriving DecidableEq

/-- a connection in `accept_owner_connection`; `opened` is how many answers there were before its challenge -/
structure Connection where
  destination : Uuid
  challenge : Bytes32
  opened : ℕ
  state : ConnState
deriving DecidableEq

structure AuthSt where
  /-- the texts signed under the cluster key -/
  signed : List (List UInt8)
  executions : List Execution
  connections : List Connection
  /-- the contexts for which `owner.accepted` was sent -/
  accepts : List OwnerAuthContext

def AuthSt.init : AuthSt := ⟨[], [], [], []⟩

inductive AuthOp where
  /-- a node proves its configuration, under the same key -/
  | configure (input : ConfigurationInput)
  | connect (call : Call) (challenge : Challenge) (sourceNonce : Bytes32) (traceId : Uuid)
  | accept (destination : Uuid) (challenge : Bytes32)
  | receive (i : ℕ) (m : Authenticate) (admitted : Bool)
  /-- a time limit passes, or the connection breaks -/
  | lose (i : ℕ)

/-- the attacker has the tag, if it is one -/
def AuthSt.Has (σ : AuthSt) : Option Tag → Prop
  | some (.mac text) => text ∈ σ.signed
  | _ => True

instance (σ : AuthSt) (r : Option Tag) : Decidable (σ.Has r) :=
  match r with
  | some (.mac text) => inferInstanceAs (Decidable (text ∈ σ.signed))
  | some (.bytes _) => isTrue trivial
  | none => isTrue trivial

def AuthSt.Fresh (σ : AuthSt) (challenge : Bytes32) : Prop :=
  challenge ∉ σ.connections.map Connection.challenge ∧ challenge ∉ σ.executions.map Execution.challenge

instance (σ : AuthSt) (challenge : Bytes32) : Decidable (σ.Fresh challenge) := inferInstanceAs (Decidable (_ ∧ _))

def AuthSt.setState (σ : AuthSt) (i : ℕ) (s : ConnState) : AuthSt :=
  { σ with connections := σ.connections.modify i fun c => { c with state := s } }

def AuthSt.receive (config : Uuid → NodeConfig) (σ : AuthSt) (i : ℕ) (c : Connection) (m : Authenticate) (admitted : Bool) :
    AuthSt :=
  match checkAuthenticate (config c.destination) c.destination c.challenge m with
  | some context =>
    if admitted then { σ.setState i (.accepted context) with accepts := σ.accepts ++ [context] } else σ.setState i .closed
  | none => σ.setState i .closed

/-- an operation that is not possible leaves the state alone -/
def authStep (config : Uuid → NodeConfig) (σ : AuthSt) : AuthOp → AuthSt
  | .configure input => { σ with signed := input.transcript :: σ.signed }
  | .connect call challenge sourceNonce traceId =>
    match connectAuthenticated call challenge sourceNonce traceId with
    | some e =>
      { σ with executions := σ.executions ++ [e], signed := (e.context config).transcript :: σ.signed }
    | none => σ
  | .accept destination challenge =>
    if σ.Fresh challenge then
      { σ with connections := σ.connections ++ [⟨destination, challenge, σ.executions.length, .waiting⟩] }
    else σ
  | .receive i m admitted =>
    match σ.connections[i]? with
    | some c => if c.state = .waiting ∧ σ.Has m.response then σ.receive config i c m admitted else σ
    | none => σ
  | .lose i =>
    match σ.connections[i]? with
    | some c => if c.state = .waiting then σ.setState i .closed else σ
    | none => σ

/-! ## The invariant -/

/-- the connection's answer came from a node that executed `connect_authenticated` for what was accepted, after the challenge -/
def Agrees (σ : AuthSt) (c : Connection) (context : OwnerAuthContext) : Prop :=
  context.destinationIncarnationId = c.destination ∧ context.challenge = c.challenge ∧
    ∃ e ∈ σ.executions.drop c.opened, e.sourceIncarnationId = context.sourceIncarnationId ∧
      e.machineId = context.machineId ∧ e.routeRevision = context.routeRevision ∧
      e.connectionEpoch = context.connectionEpoch ∧ e.connectionClass = context.connectionClass ∧
      e.destinationIncarnationId = c.destination ∧ e.challenge = c.challenge

structure AuthInv (config : Uuid → NodeConfig) (σ : AuthSt) : Prop where
  signed : ∀ text ∈ σ.signed,
    (∃ e ∈ σ.executions, text = (e.context config).transcript) ∨ ∃ input : ConfigurationInput, text = input.transcript
  nodup : (σ.connections.map Connection.challenge).Nodup
  born : ∀ c ∈ σ.connections, c.opened ≤ σ.executions.length
  opened : ∀ c ∈ σ.connections, ∀ e ∈ σ.executions.take c.opened, e.challenge ≠ c.challenge
  agrees : ∀ c ∈ σ.connections, ∀ context, c.state = .accepted context → Agrees σ c context
  accepts : (σ.accepts.map OwnerAuthContext.challenge).Nodup
  logged : ∀ a ∈ σ.accepts, ∃ c ∈ σ.connections, c.challenge = a.challenge ∧ c.state = .accepted a

variable {config : Uuid → NodeConfig} {σ : AuthSt}

/-- a text that was signed and is a context's transcript was signed by the node that dialled -/
theorem AuthInv.signed_context (h : AuthInv config σ) {context : OwnerAuthContext} (hmem : context.transcript ∈ σ.signed) :
    ∃ e ∈ σ.executions, e.context config = context := by
  rcases h.signed _ hmem with ⟨e, he, heq⟩ | ⟨input, heq⟩
  · exact ⟨e, he, (transcript_injective heq).symm⟩
  · exact absurd heq (transcript_ne_configuration context input)

/-- what the checks say of an answer that passes them -/
theorem checkAuthenticate_ok {c : NodeConfig} {d : Uuid} {challenge : Bytes32} {m : Authenticate} {context : OwnerAuthContext}
    (h : checkAuthenticate c d challenge m = some context) :
    context.destinationIncarnationId = d ∧ context.challenge = challenge ∧ m.response = some (.mac context.transcript) := by
  simp only [checkAuthenticate, Option.bind_eq_bind, Option.bind_eq_some_iff] at h
  obtain ⟨routeRevision, _, connectionEpoch, _, connectionClass, _, sourceNonce, _, response, hresponse, h⟩ := h
  split_ifs at h with hrefused
  cases h
  rw [not_or, not_or, not_not, not_not, verifyOwnerResponse, Bool.not_eq_false, decide_eq_true_eq] at hrefused
  refine ⟨hrefused.2.1, rfl, ?_⟩
  rw [hresponse, hrefused.2.2]

theorem Agrees.mono {σ' : AuthSt} {c : Connection} {context : OwnerAuthContext} (h : Agrees σ c context)
    (he : ∃ es, σ'.executions = σ.executions ++ es) : Agrees σ' c context := by
  obtain ⟨hd, hc, e, hmem, hrest⟩ := h
  obtain ⟨es, hes⟩ := he
  refine ⟨hd, hc, e, ?_, hrest⟩
  rw [hes, List.drop_append]
  exact List.mem_append_left _ hmem

/-- the execution behind a good answer comes after the challenge -/
theorem AuthInv.agreement (h : AuthInv config σ) {c : Connection} (hc : c ∈ σ.connections) {m : Authenticate}
    {context : OwnerAuthContext} (hhas : σ.Has m.response)
    (hcheck : checkAuthenticate (config c.destination) c.destination c.challenge m = some context) :
    Agrees σ c context := by
  obtain ⟨hdestination, hchallenge, hresponse⟩ := checkAuthenticate_ok hcheck
  rw [hresponse] at hhas
  obtain ⟨e, he, heq⟩ := h.signed_context hhas
  have hsame : e.challenge = c.challenge := by
    rw [← hchallenge, ← heq]
    rfl
  have hlate : e ∈ σ.executions.drop c.opened := by
    rw [← List.take_append_drop c.opened σ.executions, List.mem_append] at he
    rcases he with he | he
    · exact absurd hsame (h.opened c hc e he)
    · exact he
  refine ⟨hdestination, hchallenge, e, hlate, ?_, ?_, ?_, ?_, ?_, ?_, hsame⟩
  · rw [← heq]
    rfl
  · rw [← heq]
    rfl
  · rw [← heq]
    rfl
  · rw [← heq]
    rfl
  · rw [← heq]
    rfl
  · rw [← hdestination, ← heq]
    rfl

/-! ## Steps -/

theorem AuthInv.configure (h : AuthInv config σ) (input : ConfigurationInput) :
    AuthInv config { σ with signed := input.transcript :: σ.signed } := by
  refine ⟨?_, h.nodup, h.born, h.opened, h.agrees, h.accepts, h.logged⟩
  intro text htext
  rcases List.mem_cons.1 htext with rfl | htext
  · exact .inr ⟨input, rfl⟩
  · exact h.signed text htext

theorem AuthInv.connect (h : AuthInv config σ) (e : Execution) :
    AuthInv config { σ with executions := σ.executions ++ [e], signed := (e.context config).transcript :: σ.signed } := by
  refine ⟨?_, h.nodup, ?_, ?_, ?_, h.accepts, h.logged⟩
  · intro text htext
    rcases List.mem_cons.1 htext with rfl | htext
    · exact .inl ⟨e, List.mem_append_right _ (List.mem_singleton.2 rfl), rfl⟩
    · rcases h.signed text htext with ⟨e', he', heq⟩ | hinput
      · exact .inl ⟨e', List.mem_append_left _ he', heq⟩
      · exact .inr hinput
  · intro c hc
    rw [List.length_append]
    exact (h.born c hc).trans (Nat.le_add_right _ _)
  · intro c hc
    rw [List.take_append_of_le_length (h.born c hc)]
    exact h.opened c hc
  · intro c hc context hstate
    exact (h.agrees c hc context hstate).mono ⟨[e], rfl⟩

theorem AuthInv.accept (h : AuthInv config σ) (destination : Uuid) {challenge : Bytes32} (hfresh : σ.Fresh challenge) :
    AuthInv config
      { σ with connections := σ.connections ++ [⟨destination, challenge, σ.executions.length, .waiting⟩] } := by
  refine ⟨h.signed, ?_, ?_, ?_, ?_, h.accepts, ?_⟩
  · rw [List.map_append]
    refine List.nodup_append.2 ⟨h.nodup, List.nodup_singleton _, ?_⟩
    intro a ha b hb heq
    rw [List.map_singleton, List.mem_singleton] at hb
    rw [heq, hb] at ha
    exact hfresh.1 ha
  · intro c hc
    rcases List.mem_append.1 hc with hc | hc
    · exact h.born c hc
    · rw [List.mem_singleton.1 hc]
  · intro c hc
    rcases List.mem_append.1 hc with hc | hc
    · exact h.opened c hc
    · rw [List.mem_singleton.1 hc]
      intro e he heq
      -- no answer had the challenge before
      exact hfresh.2 (List.mem_map.2 ⟨e, List.mem_of_mem_take he, heq⟩)
  · intro c hc context hstate
    rcases List.mem_append.1 hc with hc | hc
    · exact h.agrees c hc context hstate
    · rw [List.mem_singleton.1 hc] at hstate
      cases hstate
  · intro a ha
    obtain ⟨c, hc, hrest⟩ := h.logged a ha
    exact ⟨c, List.mem_append_left _ hc, hrest⟩

/-- the connections after one of them, which was waiting, changes its state -/
theorem mem_setState {i : ℕ} {c c' : Connection} {s : ConnState} (hi : σ.connections[i]? = some c)
    (h : c' ∈ (σ.setState i s).connections) : c' = { c with state := s } ∨ c' ∈ σ.connections := by
  obtain ⟨j, hj⟩ := List.mem_iff_getElem?.1 h
  rw [AuthSt.setState, List.getElem?_modify] at hj
  split_ifs at hj with hij
  · subst hij
    rw [hi] at hj
    exact .inl (Option.some.inj hj).symm
  · exact .inr (List.mem_of_getElem? (by simpa using hj))

theorem map_challenge_setState (i : ℕ) (s : ConnState) :
    (σ.setState i s).connections.map Connection.challenge = σ.connections.map Connection.challenge := by
  rw [AuthSt.setState]
  refine List.ext_getElem? ?_
  intro j
  rw [List.getElem?_map, List.getElem?_map, List.getElem?_modify]
  cases σ.connections[j]? with
  | none => rfl
  | some c =>
    rw [Option.map_eq_map, Option.map_some, Option.map_some, Option.map_some]
    split_ifs <;> rfl

/-- two connections with one challenge are one -/
theorem AuthInv.unique (h : AuthInv config σ) {c c' : Connection} (hc : c ∈ σ.connections) (hc' : c' ∈ σ.connections)
    (heq : c.challenge = c'.challenge) : c = c' := List.inj_on_of_nodup_map h.nodup hc hc' heq

theorem AuthInv.setState (h : AuthInv config σ) {i : ℕ} {c : Connection} {s : ConnState} (hi : σ.connections[i]? = some c)
    (hwaiting : c.state = .waiting) (hs : ∀ context, s = .accepted context → Agrees σ c context) :
    AuthInv config (σ.setState i s) := by
  have hmem := List.mem_of_getElem? hi
  refine ⟨h.signed, ?_, ?_, ?_, ?_, h.accepts, ?_⟩
  · rw [map_challenge_setState]
    exact h.nodup
  · intro c' hc'
    rcases mem_setState hi hc' with rfl | hc'
    · exact h.born c hmem
    · exact h.born c' hc'
  · intro c' hc'
    rcases mem_setState hi hc' with rfl | hc'
    · exact h.opened c hmem
    · exact h.opened c' hc'
  · intro c' hc' context hstate
    rcases mem_setState hi hc' with rfl | hc'
    · exact hs context hstate
    · exact h.agrees c' hc' context hstate
  · intro a ha
    obtain ⟨c', hc', hchallenge, hstate⟩ := h.logged a ha
    -- the one that changes was not accepted
    have hne : c' ≠ c := by
      intro heq
      rw [heq, hwaiting] at hstate
      cases hstate
    obtain ⟨j, hj⟩ := List.mem_iff_getElem?.1 hc'
    have hij : i ≠ j := by
      intro heq
      rw [← heq, hi] at hj
      exact hne (Option.some.inj hj).symm
    refine ⟨c', List.mem_iff_getElem?.2 ⟨j, ?_⟩, hchallenge, hstate⟩
    rw [AuthSt.setState, List.getElem?_modify, hj]
    simp [hij]

theorem AuthInv.accepted (h : AuthInv config σ) {i : ℕ} {c : Connection} {context : OwnerAuthContext}
    (hi : σ.connections[i]? = some c) (hwaiting : c.state = .waiting) (hagrees : Agrees σ c context) :
    AuthInv config { σ.setState i (.accepted context) with accepts := σ.accepts ++ [context] } := by
  have hset : AuthInv config (σ.setState i (.accepted context)) := by
    refine h.setState hi hwaiting ?_
    intro context' heq
    cases heq
    exact hagrees
  refine ⟨hset.signed, hset.nodup, hset.born, hset.opened, hset.agrees, ?_, ?_⟩
  · rw [List.map_append]
    refine List.nodup_append.2 ⟨h.accepts, List.nodup_singleton _, ?_⟩
    intro x hx y hy heq
    rw [List.map_singleton, List.mem_singleton] at hy
    -- an accepted challenge belongs to an accepted connection, which this one is not
    obtain ⟨a, ha, hax⟩ := List.mem_map.1 hx
    obtain ⟨c', hc', hchallenge, hstate⟩ := h.logged a ha
    have hsame : c'.challenge = c.challenge := by rw [hchallenge, hax, heq, hy, hagrees.2.1]
    rw [h.unique hc' (List.mem_of_getElem? hi) hsame, hwaiting] at hstate
    cases hstate
  · intro a ha
    rcases List.mem_append.1 ha with ha | ha
    · exact hset.logged a ha
    · rw [List.mem_singleton.1 ha]
      refine ⟨{ c with state := .accepted context }, List.mem_iff_getElem?.2 ⟨i, ?_⟩, hagrees.2.1.symm, rfl⟩
      show (σ.setState i (.accepted context)).connections[i]? = _
      rw [AuthSt.setState, List.getElem?_modify, hi]
      simp

theorem authStep_inv (σ : AuthSt) (o : AuthOp) (h : AuthInv config σ) : AuthInv config (authStep config σ o) := by
  cases o with
  | configure input => exact h.configure input
  | connect call challenge sourceNonce traceId =>
    unfold authStep
    dsimp only
    split
    · exact h.connect _
    · exact h
  | accept destination challenge =>
    unfold authStep
    dsimp only
    split_ifs with hfresh
    · exact h.accept destination hfresh
    · exact h
  | receive i m admitted =>
    unfold authStep
    dsimp only
    split
    · rename_i c hi
      split_ifs with hready
      · have hclosed : AuthInv config (σ.setState i .closed) := h.setState hi hready.1 nofun
        unfold AuthSt.receive
        split
        · rename_i context hcheck
          split_ifs
          · exact h.accepted hi hready.1 (h.agreement (List.mem_of_getElem? hi) hready.2 hcheck)
          · exact hclosed
        · exact hclosed
      · exact h
    · exact h
  | lose i =>
    unfold authStep
    dsimp only
    split
    · rename_i c hi
      split_ifs with hwaiting
      · exact h.setState hi hwaiting nofun
      · exact h
    · exact h

theorem authInit_inv : AuthInv config AuthSt.init :=
  ⟨nofun, List.nodup_nil, nofun, nofun, nofun, List.nodup_nil, nofun⟩

/-- **Agreement.** Whatever the attacker does: a connection is accepted for a context only if the node named as its source executed
    `connect_authenticated` for exactly this Machine, route, class and destination, in answer to the challenge of this connection
    and after it was sent; and no challenge is accepted twice. -/
theorem owner_auth_agreement (config : Uuid → NodeConfig) (ops : List AuthOp) :
    (∀ a ∈ (Machine.run (authStep config) AuthSt.init ops).accepts,
      ∃ c ∈ (Machine.run (authStep config) AuthSt.init ops).connections, c.state = .accepted a ∧
        Agrees (Machine.run (authStep config) AuthSt.init ops) c a) ∧
    (∀ c ∈ (Machine.run (authStep config) AuthSt.init ops).connections, ∀ context, c.state = .accepted context →
      Agrees (Machine.run (authStep config) AuthSt.init ops) c context) ∧
    ((Machine.run (authStep config) AuthSt.init ops).accepts.map OwnerAuthContext.challenge).Nodup := by
  have hinv : AuthInv config (Machine.run (authStep config) AuthSt.init ops) :=
    Machine.run_inv authStep_inv _ ops authInit_inv
  refine ⟨?_, hinv.agrees, hinv.accepts⟩
  intro a ha
  obtain ⟨c, hc, _, hstate⟩ := hinv.logged a ha
  exact ⟨c, hc, hstate, hinv.agrees c hc a hstate⟩

def oneDeployment : Uuid → NodeConfig := fun _ => ⟨7, 1⟩

def dialled : Execution := ⟨1, 5, 2, 3, 9, .control, Vector.replicate 32 4, Vector.replicate 32 6, 8⟩

/-- node 1 dials node 9, which accepts the connection; a second answer to the same challenge finds it taken -/
def dialOps : List AuthOp :=
  [.accept 9 (Vector.replicate 32 4), .connect ⟨1, 5, 2, 3, 9, .control⟩ (challengeOf 9 (Vector.replicate 32 4))
    (Vector.replicate 32 6) 8, .receive 0 (dialled.message oneDeployment) true, .accept 9 (Vector.replicate 32 5),
    .receive 1 (dialled.message oneDeployment) true]

theorem owner_auth_agreement_dial :
    (Machine.run (authStep oneDeployment) AuthSt.init dialOps).accepts = [dialled.context oneDeployment] ∧
    ∃ c ∈ (Machine.run (authStep oneDeployment) AuthSt.init dialOps).connections,
      Agrees (Machine.run (authStep oneDeployment) AuthSt.init dialOps) c (dialled.context oneDeployment) := by
  have haccepts : (Machine.run (authStep oneDeployment) AuthSt.init dialOps).accepts = [dialled.context oneDeployment] := by
    decide +kernel
  refine ⟨haccepts, ?_⟩
  obtain ⟨c, hc, _, hagrees⟩ := (owner_auth_agreement oneDeployment dialOps).1 (dialled.context oneDeployment)
    (by rw [haccepts]; exact List.mem_singleton.2 rfl)
  exact ⟨c, hc, hagrees⟩

end OwlMux.Cluster
