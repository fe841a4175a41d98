/-
Custody of the SSH credentials: the operations of `owlmux-server/src/api/mod.rs` that change a credential, the default or
the credential of a Machine, and `initialize_or_validate` with `validate_credential_custody` of
`owlmux-server/src/storage.rs`.

Every operation is one transaction that first locks the row of the deployment, so a run is a list of whole operations; an
operation that fails rolls back, and one whose COMMIT is lost has happened or has not. Enrolment and transition operations
change the rows of a Machine (`Database.lean`) and leave its credential alone.

Results:
- `exec_spec`: what an operation does to credentials, default and references;
- `credential_references`: over every run, the default and every Machine refer to an active credential, there are 1 to 256
  credentials, a retired one stays retired and unreferenced, and a reopened database passes `validate_credential_custody`.
-/
import Mathlib.Tactic
import OwlMux.Cluster.Database
import OwlMux.Lib.Machine
import OwlMux.Tmux.Text

namespace OwlMux.Cluster.Custody

open OwlMux.Relay (Uuid Text byteLen)
open OwlMux.Tmux (isControl isWhitespace)

/-! ## Rows -/

inductive CredentialStatus where
  | active
  | retired
deriving DecidableEq, Repr

/-- a row of `ssh_credentials`; the key material in it is the sealed private key -/
structure CredentialRow where
  id : Uuid
  name : Text
  encryptedPrivateEnvelope : List UInt8
  status : CredentialStatus
deriving DecidableEq, Repr

structure CreateMachineInput where
  machineAlias : Text
  targetAccount : Text
  tmuxPath : Text
  tmuxSocketIdentity : Text
  sshCredentialId : Option Uuid
deriving DecidableEq, Repr

/-- a Machine: what it was created with, its credential, and its rows in the tables of `Database.lean` -/
structure BoundMachine where
  id : Uuid
  input : CreateMachineInput
  sshCredentialId : Uuid
  credentialRevision : ℤ
  row : MachineRow
deriving DecidableEq, Repr

/-- the database of one deployment (`singleton`) -/
structure Store where
  deployment : Config
  defaultSshCredentialId : Uuid
  credentials : List CredentialRow
  machines : List BoundMachine
deriving DecidableEq, Repr

/-! ## Errors and inputs -/

inductive ApiFault where
  | badRequest (code message : String)
  | notFound
  | conflict (code message : String)
  | temporarilyUnavailable
  | internal
deriving DecidableEq, Repr

/-- `map_write` of an error that the database reports: a constraint is violated -/
def ApiFault.write : ApiFault := .conflict "conflict" "The requested state conflicts with current state."

abbrev Api := Except ApiFault

def ensure (ok : Bool) (e : ApiFault) : Api Unit := if ok then .ok () else .error e

/-- `str::trim` -/
def trim (t : Text) : Text := ((t.dropWhile isWhitespace).reverse.dropWhile isWhitespace).reverse

def validateName (name : Text) : Api Unit :=
  ensure (!name.isEmpty && byteLen name ≤ 64 && trim name = name && !name.any isControl)
    (.badRequest "invalid_name" "Name must be 1 to 64 safe characters.")

/-- `is_target_account` -/
def isTargetAccount (t : Text) : Bool :=
  match t with
  | [] => false
  | c :: rest => (c.isAlpha || c = '_') && byteLen t ≤ 64 && rest.all fun c => c.isAlphanum || c = '_' || c = '.' || c = '-'

def validateMachine (input : CreateMachineInput) : Api Unit := do
  validateName input.machineAlias
  ensure (isTargetAccount input.targetAccount) (.badRequest "invalid_target_account" "Target account is invalid.")
  ensure (input.tmuxPath.head? = some '/' && byteLen input.tmuxPath ≤ 256 && !input.tmuxPath.any isControl)
    (.badRequest "invalid_tmux_path" "tmux path must be an absolute safe path.")
  ensure (!input.tmuxSocketIdentity.isEmpty && byteLen input.tmuxSocketIdentity ≤ 128 && !input.tmuxSocketIdentity.any isControl)
    (.badRequest "invalid_tmux_socket" "tmux socket identity is invalid.")

/-- the Server that runs an operation, and what it sees of the nodes -/
structure Caller where
  config : Config
  nodes : Nodes
  clock : ℤ
  incarnation : Uuid
  /-- `lease.check()` passes -/
  lease : Bool

def lockCurrentDeployment (s : Store) (c : Caller) : Api Unit :=
  ensure (s.deployment = c.config && c.lease && validateNode c.nodes c.clock c.config false c.incarnation)
    .temporarilyUnavailable

/-! ## Operations on credentials -/

def maxCredentials : ℕ := 256
def maxMachines : ℕ := 1024

def enforceCredentialLimit (s : Store) : Api Unit :=
  ensure (s.credentials.length < maxCredentials) (.conflict "credential_limit" "Deployment SSH credential limit reached.")

/-- `SELECT id FROM ssh_credentials WHERE id = $1 AND status = 'active'` -/
def Store.isActive (s : Store) (id : Uuid) : Bool := s.credentials.any fun c => c.id = id && c.status = .active

section
-- `lower` of the database, which the unique indices on names use
variable (lower : Text → Text)

/-- INSERT into `ssh_credentials`: the id and the name are unique -/
def insertCredential (s : Store) (id : Uuid) (name : Text) (envelope : List UInt8) : Api Store := do
  ensure (!s.credentials.any fun c => c.id = id || lower c.name = lower name) .write
  return { s with credentials := s.credentials ++ [⟨id, name, envelope, .active⟩] }

/-- `create_credential`; `generated` is what `generate_credential` returns -/
def createCredential (s : Store) (c : Caller) (name : Text) (id : Uuid) (generated : Option (List UInt8)) : Api Store := do
  validateName name
  match generated with
  | none => .error .internal
  | some envelope =>
    lockCurrentDeployment s c
    enforceCredentialLimit s
    insertCredential lower s id name envelope

def renameCredential (s : Store) (c : Caller) (id : Uuid) (name : Text) : Api Store := do
  validateName name
  lockCurrentDeployment s c
  ensure (s.credentials.any fun r => r.id = id) .notFound
  ensure (!s.credentials.any fun r => r.id ≠ id && lower r.name = lower name) .write
  return { s with credentials := s.credentials.map fun r => if r.id = id then { r with name := name } else r }

def setDefaultCredential (s : Store) (c : Caller) (id : Uuid) : Api Store := do
  lockCurrentDeployment s c
  ensure (s.isActive id) .notFound
  return { s with defaultSshCredentialId := id }

def resetDefaultCredential (s : Store) (c : Caller) (name : Text) (id : Uuid) (generated : Option (List UInt8)) :
    Api Store := do
  let s ← createCredential lower s c name id generated
  return { s with defaultSshCredentialId := id }

/-- the condition of the UPDATE of `retire_credential` -/
def Store.retirable (s : Store) (r : CredentialRow) (id : Uuid) : Bool :=
  r.id = id && r.status = .active && s.defaultSshCredentialId ≠ r.id && !s.machines.any fun m => m.sshCredentialId = r.id

def retireCredential (s : Store) (c : Caller) (id : Uuid) : Api Store := do
  lockCurrentDeployment s c
  ensure (s.credentials.any fun r => r.id = id) .notFound
  ensure (s.credentials.any fun r => s.retirable r id)
    (.conflict "credential_in_use" "Credential is default, bound, retired, or missing.")
  return { s with
    credentials := s.credentials.map fun r => if s.retirable r id then { r with status := .retired } else r }

/-! ## Operations on Machines -/

def createBoundMachine (s : Store) (c : Caller) (input : CreateMachineInput) (id : Uuid) : Api Store := do
  validateMachine input
  lockCurrentDeployment s c
  ensure (s.machines.length < maxMachines)
    (.conflict "machine_limit" "The Deployment Machine limit has been reached.")
  let credential := input.sshCredentialId.getD s.defaultSshCredentialId
  ensure (s.isActive credential) .notFound
  ensure (!s.machines.any fun m => m.id = id || lower m.input.machineAlias = lower input.machineAlias) .write
  return { s with machines := s.machines ++ [⟨id, input, credential, 1, ⟨.pending, 1, none, none, [], ⟨0, none, 1⟩⟩⟩] }

def renameMachine (s : Store) (c : Caller) (id : Uuid) (machineAlias : Text) : Api Store := do
  validateName machineAlias
  lockCurrentDeployment s c
  ensure (s.machines.any fun m => m.id = id) .notFound
  ensure (!s.machines.any fun m => m.id ≠ id && lower m.input.machineAlias = lower machineAlias) .write
  return { s with
    machines := s.machines.map fun m => if m.id = id then { m with input := { m.input with machineAlias := machineAlias } } else m }

def rebindMachineCredential (s : Store) (c : Caller) (id credential : Uuid) : Api Store := do
  lockCurrentDeployment s c
  match s.machines.find? fun m => m.id = id with
  | none => .error .notFound
  | some m =>
    ensure (m.row.lifecycle = .active) (.conflict "invalid_lifecycle" "Only an active Machine can be rebound.")
    ensure (m.sshCredentialId ≠ credential) (.conflict "conflict" "Machine already uses that SSH credential.")
    match checkedSucc m.credentialRevision with
    | none => .error .internal
    | some next =>
      ensure (s.isActive credential) .notFound
      return { s with
        machines := s.machines.map fun m =>
          if m.id = id then { m with sshCredentialId := credential, credentialRevision := next } else m }

/-- the writes of the enrolment and transition operations to the rows of a Machine -/
inductive RowWrite where
  | acceptToken
  | activate (hostIdentity : Text)
  | failAttempt
  | reEnroll
  | claim (epoch : ℤ) (incarnation connection : Uuid) (revision : ℤ)
  | release
  | transition (lifecycle : Lifecycle) (revision : ℤ)
deriving DecidableEq, Repr

def RowWrite.apply : RowWrite → MachineRow → MachineRow
  | .acceptToken => MachineRow.acceptToken
  | .activate host => MachineRow.activate host
  | .failAttempt => MachineRow.failAttempt
  | .reEnroll => MachineRow.reEnroll
  | .claim epoch n c revision => fun row => row.claim epoch n c revision
  | .release => MachineRow.release
  | .transition lifecycle revision => fun row => row.transition lifecycle revision

/-- `activate` also asks for an active credential -/
def RowWrite.enabled (s : Store) (m : BoundMachine) : RowWrite → Bool
  | .activate _ => s.isActive m.sshCredentialId
  | _ => true

def writeRow (s : Store) (id : Uuid) (w : RowWrite) : Store :=
  { s with machines := s.machines.map fun m => if m.id = id && w.enabled s m then { m with row := w.apply m.row } else m }

/-! ## Opening the database -/

inductive StorageError where
  | unavailable
  | custody
  | invariant
  | configurationMismatch
  | configurationTransitionBlocked
deriving DecidableEq, Repr

/-- `references_active`: two inner joins, which an id without a row leaves empty -/
def Store.referencesActive (s : Store) : Bool :=
  !s.credentials.any (fun c => c.id = s.defaultSshCredentialId && c.status ≠ .active) &&
    !s.machines.any fun m => s.credentials.any fun c => c.id = m.sshCredentialId && c.status ≠ .active

/-- `validate_credential_custody`; `opens` is `crypto::open` under the configured key. All rows read are opened, so their
order does not matter. -/
def validateCredentialCustody (opens : Uuid → List UInt8 → Bool) (s : Store) : Except StorageError Unit :=
  if !s.referencesActive then .error .invariant
  else
    let rows := (s.credentials.filter fun c => c.status = .active).take 257
    if rows.isEmpty || 256 < rows.length then .error .invariant
    else if rows.all fun c => opens c.id c.encryptedPrivateEnvelope then .ok ()
    else .error .custody

/-- `initialize_or_validate` of a new database -/
def Store.init (config : Config) (credential : Uuid) (envelope : List UInt8) : Store :=
  ⟨config, credential, [⟨credential, "Default".toList, envelope, .active⟩], []⟩

/-- `initialize_or_validate` of an existing one; `validNodes`: some node holds a valid lease -/
def Store.reopen (opens : Uuid → List UInt8 → Bool) (s : Store) (config : Config) (validNodes : Bool) :
    Except StorageError Store := do
  validateCredentialCustody opens s
  if s.deployment.configEpoch = config.configEpoch then
    if s.deployment = config then return s else .error .configurationMismatch
  else if config.configEpoch = s.deployment.configEpoch + 1 then
    if validNodes then .error .configurationTransitionBlocked else return { s with deployment := config }
  else .error .configurationMismatch

/-! ## Runs -/

inductive Op where
  | createCredential (c : Caller) (name : Text) (id : Uuid) (generated : Option (List UInt8))
  | renameCredential (c : Caller) (id : Uuid) (name : Text)
  | setDefaultCredential (c : Caller) (id : Uuid)
  | resetDefaultCredential (c : Caller) (name : Text) (id : Uuid) (generated : Option (List UInt8))
  | retireCredential (c : Caller) (id : Uuid)
  | createMachine (c : Caller) (input : CreateMachineInput) (id : Uuid)
  | renameMachine (c : Caller) (id : Uuid) (machineAlias : Text)
  | rebindMachineCredential (c : Caller) (id credential : Uuid)
  | writeRow (id : Uuid) (w : RowWrite)
  | reopen (opens : Uuid → List UInt8 → Bool) (config : Config) (validNodes : Bool)

/-- what an operation leaves if it commits; one that fails is rolled back -/
def exec (s : Store) : Op → Store
  | .createCredential c name id generated => ((createCredential lower s c name id generated).toOption).getD s
  | .renameCredential c id name => ((renameCredential lower s c id name).toOption).getD s
  | .setDefaultCredential c id => ((setDefaultCredential s c id).toOption).getD s
  | .resetDefaultCredential c name id generated => ((resetDefaultCredential lower s c name id generated).toOption).getD s
  | .retireCredential c id => ((retireCredential s c id).toOption).getD s
  | .createMachine c input id => ((createBoundMachine lower s c input id).toOption).getD s
  | .renameMachine c id machineAlias => ((renameMachine lower s c id machineAlias).toOption).getD s
  | .rebindMachineCredential c id credential => ((rebindMachineCredential s c id credential).toOption).getD s
  | .writeRow id w => writeRow s id w
  | .reopen opens config validNodes => ((s.reopen opens config validNodes).toOption).getD s

/-- an operation and whether its COMMIT takes effect -/
def step (s : Store) (o : Op × Bool) : Store := if o.2 then exec lower s o.1 else s

end

/-! ## What an operation can do -/

variable {lower : Text → Text} {s s' : Store}

theorem api_bind {α β : Type} {x : Api α} {f : α → Api β} {b : β} :
    x >>= f = .ok b ↔ ∃ a, x = .ok a ∧ f a = .ok b := by
  cases x with
  | error e => simp [bind, Except.bind]
  | ok a => simp [bind, Except.bind]

theorem ensure_ok {c : Bool} {e : ApiFault} {u : Unit} : ensure c e = .ok u ↔ c = true := by
  cases c <;> simp [ensure]

/-- the status of the credential with an id -/
def Store.status (s : Store) (id : Uuid) : Option CredentialStatus :=
  (s.credentials.find? fun c => c.id = id).map CredentialRow.status

/-- the default, or a Machine, refers to the credential -/
def Store.Refers (s : Store) (id : Uuid) : Prop :=
  s.defaultSshCredentialId = id ∨ ∃ m ∈ s.machines, m.sshCredentialId = id

/-- ids are unique, references are to active credentials and the limit is kept -/
structure Store.Ok (s : Store) : Prop where
  unique : (s.credentials.map CredentialRow.id).Nodup
  active : ∀ id, s.Refers id → s.status id = some .active
  limit : s.credentials.length ≤ maxCredentials

/-- what an operation can do to credentials and references: insert one, keep them up to their names, or retire an
unreferenced one; and every reference afterwards is one from before or one to an active credential -/
inductive Change (s s' : Store) : Prop where
  | insert (row : CredentialRow) (hnew : ∀ c ∈ s.credentials, c.id ≠ row.id) (hactive : row.status = .active)
      (hlimit : s.credentials.length < maxCredentials) (hcred : s'.credentials = s.credentials ++ [row])
      (href : ∀ id, s'.Refers id → s.Refers id ∨ id = row.id)
  | keep (f : CredentialRow → CredentialRow) (hid : ∀ c, (f c).id = c.id) (hstatus : ∀ c, (f c).status = c.status)
      (hcred : s'.credentials = s.credentials.map f)
      (href : ∀ id, s'.Refers id → s.Refers id ∨ s.isActive id = true)
  | retire (id : Uuid) (hid : ¬ s.Refers id) (hcred : s'.credentials = s.credentials.map fun c =>
        if c.id = id then { c with status := .retired } else c)
      (href : ∀ id, s'.Refers id → s.Refers id)

/-- an operation that fails leaves the store as it is -/
theorem getD_cases {x : Api Store} {P : Store → Prop} (herr : P s) (hok : ∀ s', x = .ok s' → P s') :
    P (x.toOption.getD s) := by
  cases x with
  | error e => exact herr
  | ok s' => exact hok s' rfl

theorem Change.same (hcred : s'.credentials = s.credentials) (href : ∀ id, s'.Refers id → s.Refers id ∨ s.isActive id = true) :
    Change s s' :=
  .keep (fun c => c) (fun _ => rfl) (fun _ => rfl) (by rw [hcred, List.map_id']) href

theorem Change.refl (s : Store) : Change s s := .same rfl fun _ h => Or.inl h

theorem createCredential_ok {c : Caller} {name : Text} {id : Uuid} {generated : Option (List UInt8)}
    (h : createCredential lower s c name id generated = .ok s') :
    ∃ envelope, (∀ r ∈ s.credentials, r.id ≠ id) ∧ s.credentials.length < maxCredentials ∧
      s' = { s with credentials := s.credentials ++ [⟨id, name, envelope, .active⟩] } := by
  obtain ⟨_, -, h⟩ := api_bind.1 h
  cases generated with
  | none => cases h
  | some envelope =>
    obtain ⟨_, -, h⟩ := api_bind.1 h
    obtain ⟨_, hlimit, h⟩ := api_bind.1 h
    obtain ⟨_, hnew, h⟩ := api_bind.1 h
    cases h
    refine ⟨envelope, fun r hr e => ?_, by simpa using ensure_ok.1 hlimit, rfl⟩
    have := ensure_ok.1 hnew
    simp only [Bool.not_eq_true', List.any_eq_false, Bool.or_eq_true, decide_eq_true_eq] at this
    exact this r hr (Or.inl e)

/-- the UPDATE of a retirement touches exactly the credential with the id, and nothing refers to it -/
theorem retirable_spec {id : Uuid} (h : (s.credentials.any fun r => s.retirable r id) = true) :
    ¬ s.Refers id ∧ ∀ r : CredentialRow,
      (if s.retirable r id then { r with status := .retired } else r) =
        if r.id = id then { r with status := CredentialStatus.retired } else r := by
  obtain ⟨r₀, -, hr₀⟩ := List.any_eq_true.1 h
  simp only [Store.retirable, Bool.and_eq_true, decide_eq_true_eq, Bool.not_eq_true', List.any_eq_false] at hr₀
  obtain ⟨⟨⟨rfl, -⟩, hdefault⟩, hmachines⟩ := hr₀
  refine ⟨?_, fun r => ?_⟩
  · rintro (he | ⟨m, hm, he⟩)
    · exact hdefault he
    · exact hmachines m hm he
  · by_cases hid : r.id = r₀.id
    · have hret : s.retirable r r₀.id = decide (r.status = .active) := by
        have hm : (s.machines.any fun m => decide (m.sshCredentialId = r₀.id)) = false := by simpa using hmachines
        simp [Store.retirable, hid, hdefault, hm]
      rw [hret, if_pos hid]
      cases hs : r.status with
      | active => simp
      | retired => simp [← hs]
    · have hret : s.retirable r r₀.id = false := by simp [Store.retirable, hid]
      rw [hret, if_neg hid]
      rfl

/-- mapping Machines without touching a credential id keeps the references -/
theorem refers_of_map {f : BoundMachine → BoundMachine} (hf : ∀ m, (f m).sshCredentialId = m.sshCredentialId) {id : Uuid}
    (h : ({ s with machines := s.machines.map f } : Store).Refers id) : s.Refers id := by
  rcases h with h | ⟨m, hm, h⟩
  · exact Or.inl h
  · obtain ⟨m₀, hm₀, rfl⟩ := List.mem_map.1 hm
    exact Or.inr ⟨m₀, hm₀, (hf m₀).symm.trans h⟩

/-- **Inversion.** Every operation is a change. -/
theorem exec_spec (s : Store) (o : Op) : Change s (exec lower s o) := by
  cases o with
  | createCredential c name id generated =>
    refine getD_cases (P := Change s) (.refl s) fun s' h => ?_
    obtain ⟨envelope, hnew, hlimit, rfl⟩ := createCredential_ok h
    exact .insert ⟨id, name, envelope, .active⟩ hnew rfl hlimit rfl fun _ h => Or.inl h
  | renameCredential c id name =>
    refine getD_cases (P := Change s) (.refl s) fun s' h => ?_
    obtain ⟨_, -, h⟩ := api_bind.1 h
    obtain ⟨_, -, h⟩ := api_bind.1 h
    obtain ⟨_, -, h⟩ := api_bind.1 h
    obtain ⟨_, -, h⟩ := api_bind.1 h
    cases h
    exact .keep (fun r => if r.id = id then { r with name := name } else r) (fun r => by split_ifs <;> rfl)
      (fun r => by split_ifs <;> rfl) rfl fun _ h => Or.inl h
  | setDefaultCredential c id =>
    refine getD_cases (P := Change s) (.refl s) fun s' h => ?_
    obtain ⟨_, -, h⟩ := api_bind.1 h
    obtain ⟨_, hactive, h⟩ := api_bind.1 h
    cases h
    refine .same rfl fun i hi => ?_
    rcases hi with rfl | hi
    · exact Or.inr (ensure_ok.1 hactive)
    · exact Or.inl (Or.inr hi)
  | resetDefaultCredential c name id generated =>
    refine getD_cases (P := Change s) (.refl s) fun s' h => ?_
    obtain ⟨s₁, h₁, h⟩ := api_bind.1 h
    obtain ⟨envelope, hnew, hlimit, rfl⟩ := createCredential_ok h₁
    cases h
    refine .insert ⟨id, name, envelope, .active⟩ hnew rfl hlimit rfl fun i hi => ?_
    rcases hi with rfl | hi
    · exact Or.inr rfl
    · exact Or.inl (Or.inr hi)
  | retireCredential c id =>
    refine getD_cases (P := Change s) (.refl s) fun s' h => ?_
    obtain ⟨_, -, h⟩ := api_bind.1 h
    obtain ⟨_, -, h⟩ := api_bind.1 h
    obtain ⟨_, hany, h⟩ := api_bind.1 h
    cases h
    obtain ⟨hid, hrow⟩ := retirable_spec (ensure_ok.1 hany)
    exact .retire id hid (List.map_congr_left fun r _ => hrow r) fun _ h => h
  | createMachine c input id =>
    refine getD_cases (P := Change s) (.refl s) fun s' h => ?_
    obtain ⟨_, -, h⟩ := api_bind.1 h
    obtain ⟨_, -, h⟩ := api_bind.1 h
    obtain ⟨_, -, h⟩ := api_bind.1 h
    obtain ⟨_, hactive, h⟩ := api_bind.1 h
    obtain ⟨_, -, h⟩ := api_bind.1 h
    cases h
    refine .same rfl fun i hi => ?_
    rcases hi with rfl | ⟨m, hm, rfl⟩
    · exact Or.inl (Or.inl rfl)
    · rcases List.mem_append.1 hm with hm | hm
      · exact Or.inl (Or.inr ⟨m, hm, rfl⟩)
      · rw [List.mem_singleton.1 hm]
        exact Or.inr (ensure_ok.1 hactive)
  | renameMachine c id machineAlias =>
    refine getD_cases (P := Change s) (.refl s) fun s' h => ?_
    obtain ⟨_, -, h⟩ := api_bind.1 h
    obtain ⟨_, -, h⟩ := api_bind.1 h
    obtain ⟨_, -, h⟩ := api_bind.1 h
    obtain ⟨_, -, h⟩ := api_bind.1 h
    cases h
    exact .same rfl fun i hi => Or.inl (refers_of_map (fun m => by split_ifs <;> rfl) hi)
  | rebindMachineCredential c id credential =>
    refine getD_cases (P := Change s) (.refl s) fun s' h => ?_
    obtain ⟨_, -, h⟩ := api_bind.1 h
    split at h
    · cases h
    · obtain ⟨_, -, h⟩ := api_bind.1 h
      obtain ⟨_, -, h⟩ := api_bind.1 h
      split at h
      · cases h
      · obtain ⟨_, hactive, h⟩ := api_bind.1 h
        cases h
        refine .same rfl fun i hi => ?_
        rcases hi with rfl | ⟨m, hm, rfl⟩
        · exact Or.inl (Or.inl rfl)
        · obtain ⟨m₀, hm₀, rfl⟩ := List.mem_map.1 hm
          split_ifs
          · exact Or.inr (ensure_ok.1 hactive)
          · exact Or.inl (Or.inr ⟨m₀, hm₀, rfl⟩)
  | writeRow id w =>
    exact .same rfl fun i hi => Or.inl (refers_of_map (fun m => by split_ifs <;> rfl) hi)
  | reopen opens config validNodes =>
    cases h : s.reopen opens config validNodes with
    | error e => simpa [exec, h, Except.toOption] using Change.refl s
    | ok s' =>
      have hs' : s' = s ∨ s' = { s with deployment := config } := by
        unfold Store.reopen at h
        cases hv : validateCredentialCustody opens s with
        | error e =>
          rw [hv] at h
          cases h
        | ok u =>
          rw [hv] at h
          change (if _ then _ else _) = _ at h
          split_ifs at h
          · cases h
            exact Or.inl rfl
          · cases h
            exact Or.inr rfl
      have hexec : exec lower s (.reopen opens config validNodes) = s' := by simp [exec, h, Except.toOption]
      rw [hexec]
      rcases hs' with rfl | rfl
      · exact .refl _
      · exact .same rfl fun _ h => Or.inl h

/-! ## The invariant -/

theorem status_eq_some {id : Uuid} {st : CredentialStatus} (hu : (s.credentials.map CredentialRow.id).Nodup) :
    s.status id = some st ↔ ∃ c ∈ s.credentials, c.id = id ∧ c.status = st := by
  unfold Store.status
  constructor
  · intro h
    obtain ⟨c, hc, rfl⟩ := Option.map_eq_some_iff.1 h
    exact ⟨c, List.mem_of_find?_eq_some hc, by simpa using List.find?_some hc, rfl⟩
  · rintro ⟨c, hc, rfl, rfl⟩
    have hfind : (s.credentials.find? fun r => r.id = c.id) = some c := by
      rw [List.find?_eq_some_iff_append]
      obtain ⟨as, bs, hsplit⟩ := List.append_of_mem hc
      refine ⟨by simp, as, bs, hsplit, fun a ha => ?_⟩
      rw [hsplit, List.map_append, List.nodup_append] at hu
      simpa using hu.2.2 a.id (List.mem_map_of_mem ha) c.id (by simp)
    rw [hfind]
    rfl

theorem isActive_iff {id : Uuid} (hu : (s.credentials.map CredentialRow.id).Nodup) :
    s.isActive id = true ↔ s.status id = some .active := by
  rw [status_eq_some hu]
  simp [Store.isActive]

/-- **Step.** A change keeps the invariant and every retirement. -/
theorem Change.ok (h : Change s s') (hs : s.Ok) :
    s'.Ok ∧ ∀ id, s.status id = some .retired → s'.status id = some .retired := by
  cases h with
  | insert row hnew hactive hlimit hcred href =>
    have hu : (s'.credentials.map CredentialRow.id).Nodup := by
      rw [hcred, List.map_append, List.nodup_append]
      refine ⟨hs.unique, by simp, ?_⟩
      intro a ha b hb
      obtain ⟨c, hc, rfl⟩ := List.mem_map.1 ha
      rw [List.map_singleton, List.mem_singleton] at hb
      rw [hb]
      exact hnew c hc
    have hkeep : ∀ id st, s.status id = some st → s'.status id = some st := by
      intro id st hst
      obtain ⟨c, hc, hcid, hcst⟩ := (status_eq_some hs.unique).1 hst
      exact (status_eq_some hu).2 ⟨c, by rw [hcred]; exact List.mem_append_left _ hc, hcid, hcst⟩
    refine ⟨⟨hu, fun id hid => ?_, ?_⟩, fun id => hkeep id _⟩
    · rcases href id hid with hid | rfl
      · exact hkeep _ _ (hs.active id hid)
      · exact (status_eq_some hu).2 ⟨row, by rw [hcred]; simp, rfl, hactive⟩
    · rw [hcred, List.length_append, List.length_singleton]
      omega
  | keep f hid hstatus hcred href =>
    have hmap : s'.credentials.map CredentialRow.id = s.credentials.map CredentialRow.id := by
      rw [hcred, List.map_map]
      exact List.map_congr_left fun c _ => hid c
    have hu : (s'.credentials.map CredentialRow.id).Nodup := hmap ▸ hs.unique
    have hkeep : ∀ id st, s.status id = some st → s'.status id = some st := by
      intro id st hst
      obtain ⟨c, hc, hcid, hcst⟩ := (status_eq_some hs.unique).1 hst
      refine (status_eq_some hu).2 ⟨f c, by rw [hcred]; exact List.mem_map_of_mem hc, ?_, ?_⟩
      · rw [hid, hcid]
      · rw [hstatus, hcst]
    refine ⟨⟨hu, fun id hr => ?_, ?_⟩, fun id => hkeep id _⟩
    · rcases href id hr with hr | hr
      · exact hkeep _ _ (hs.active id hr)
      · exact hkeep _ _ ((isActive_iff hs.unique).1 hr)
    · rw [hcred, List.length_map]
      exact hs.limit
  | retire id hid hcred href =>
    have hmap : s'.credentials.map CredentialRow.id = s.credentials.map CredentialRow.id := by
      rw [hcred, List.map_map]
      refine List.map_congr_left fun c _ => ?_
      simp only [Function.comp]
      split_ifs <;> rfl
    have hu : (s'.credentials.map CredentialRow.id).Nodup := hmap ▸ hs.unique
    have hmem : ∀ c ∈ s.credentials, (if c.id = id then { c with status := .retired } else c) ∈ s'.credentials := by
      intro c hc
      rw [hcred]
      exact List.mem_map_of_mem hc
    refine ⟨⟨hu, fun i hi => ?_, ?_⟩, fun i hi => ?_⟩
    · -- the retired credential is not the one referred to
      have hne : i ≠ id := fun e => hid (e ▸ href i hi)
      obtain ⟨c, hc, rfl, hcst⟩ := (status_eq_some hs.unique).1 (hs.active i (href i hi))
      have := hmem c hc
      rw [if_neg hne] at this
      exact (status_eq_some hu).2 ⟨c, this, rfl, hcst⟩
    · rw [hcred, List.length_map]
      exact hs.limit
    · obtain ⟨c, hc, rfl, hcst⟩ := (status_eq_some hs.unique).1 hi
      refine (status_eq_some hu).2 ⟨_, hmem c hc, ?_, ?_⟩
      · split_ifs <;> rfl
      · split_ifs
        · rfl
        · exact hcst

theorem step_ok (lower : Text → Text) (o : Op × Bool) (hs : s.Ok) :
    (step lower s o).Ok ∧ ∀ id, s.status id = some .retired → (step lower s o).status id = some .retired := by
  unfold step
  split_ifs
  · exact (exec_spec s o.1).ok hs
  · exact ⟨hs, fun _ h => h⟩

/-- **Run.** The invariant and the retirements of a store hold after every run from it. -/
theorem run_ok (lower : Text → Text) (ops : List (Op × Bool)) (hs : s.Ok) :
    (Machine.run (step lower) s ops).Ok ∧
      ∀ id, s.status id = some .retired → (Machine.run (step lower) s ops).status id = some .retired := by
  induction ops generalizing s with
  | nil => exact ⟨hs, fun _ h => h⟩
  | cons o ops ih =>
    obtain ⟨h1, h2⟩ := step_ok lower o hs
    obtain ⟨h3, h4⟩ := ih h1
    exact ⟨h3, fun id h => h4 id (h2 id h)⟩

theorem init_ok (config : Config) (credential : Uuid) (envelope : List UInt8) : (Store.init config credential envelope).Ok := by
  refine ⟨by simp [Store.init], ?_, by simp [Store.init, maxCredentials]⟩
  rintro id (h | ⟨m, hm, -⟩)
  · simp [Store.init, Store.status] at h ⊢
    exact h
  · cases hm

/-- a store with the invariant is never refused with `Invariant` -/
theorem validateCredentialCustody_ne_invariant (opens : Uuid → List UInt8 → Bool) (hs : s.Ok) :
    validateCredentialCustody opens s ≠ .error .invariant := by
  have hactive : ∀ id, s.Refers id → (s.credentials.any fun c => c.id = id && c.status ≠ .active) = false := by
    intro id hid
    rw [List.any_eq_false]
    intro c hc h
    simp only [Bool.and_eq_true, decide_eq_true_eq] at h
    have h1 := hs.active id hid
    have h2 := (status_eq_some hs.unique).2 ⟨c, hc, h.1, rfl⟩
    rw [h1] at h2
    exact h.2 (Option.some.inj h2).symm
  have href : s.referencesActive = true := by
    unfold Store.referencesActive
    rw [hactive _ (Or.inl rfl), Bool.not_false, Bool.true_and, Bool.not_eq_true', List.any_eq_false]
    intro m hm
    rw [hactive _ (Or.inr ⟨m, hm, rfl⟩)]
    decide
  obtain ⟨c, hc, -, hst⟩ := (status_eq_some hs.unique).1 (hs.active _ (Or.inl rfl))
  have hpos : 0 < (s.credentials.filter fun c => c.status = .active).length :=
    List.length_pos_of_mem (List.mem_filter.2 ⟨hc, by simpa using hst⟩)
  have hle : (s.credentials.filter fun c => c.status = .active).length ≤ 256 :=
    (List.length_filter_le _ _).trans hs.limit
  unfold validateCredentialCustody
  simp only [href, Bool.not_true, Bool.false_eq_true, if_false]
  rw [List.take_of_length_le (by omega), if_neg]
  · split_ifs <;> simp
  · simp only [List.isEmpty_iff, Bool.or_eq_true, decide_eq_true_eq, not_or, not_lt]
    exact ⟨List.ne_nil_of_length_pos hpos, hle⟩

/-- **Credential references.** From the state made by `initialize_or_validate`, over every run: the default and the
credential of every Machine exist and are active, there are 1 to 256 credentials, a retired credential is never active or
referred to again, and `validate_credential_custody` never returns `Invariant`. -/
theorem credential_references (lower : Text → Text) (config : Config) (credential : Uuid) (envelope : List UInt8)
    (ops : List (Op × Bool)) :
    (∀ id, (Machine.run (step lower) (Store.init config credential envelope) ops).Refers id →
        (Machine.run (step lower) (Store.init config credential envelope) ops).status id = some .active) ∧
      1 ≤ (Machine.run (step lower) (Store.init config credential envelope) ops).credentials.length ∧
      (Machine.run (step lower) (Store.init config credential envelope) ops).credentials.length ≤ 256 ∧
      (∀ id, (Machine.run (step lower) (Store.init config credential envelope) ops).status id = some .retired →
        ∀ more, (Machine.run (step lower) (Store.init config credential envelope) (ops ++ more)).status id = some .retired ∧
          ¬ (Machine.run (step lower) (Store.init config credential envelope) (ops ++ more)).Refers id) ∧
      ∀ opens, validateCredentialCustody opens (Machine.run (step lower) (Store.init config credential envelope) ops) ≠
        .error .invariant := by
  obtain ⟨hok, -⟩ := run_ok lower ops (init_ok config credential envelope)
  generalize hs : Machine.run (step lower) (Store.init config credential envelope) ops = s at hok ⊢
  refine ⟨hok.active, ?_, hok.limit, fun id hid more => ?_, fun opens => validateCredentialCustody_ne_invariant opens hok⟩
  · obtain ⟨c, hc, -⟩ := (status_eq_some hok.unique).1 (hok.active _ (Or.inl rfl))
    exact List.length_pos_of_mem hc
  · rw [Machine.run_append, hs]
    obtain ⟨h1, h2⟩ := run_ok lower more hok
    refine ⟨h2 id hid, fun hr => ?_⟩
    have := h1.active id hr
    rw [h2 id hid] at this
    cases this

end OwlMux.Cluster.Custody
