import Longjing.Client.Note
import Longjing.Credits.Lemmas.Roots

/-!
This module contains the contract and the server side by side, and a note's owner next to both. What
the server reads of the contract, and the exits it is told of, are the contract's own between two
transactions.
-/

namespace Longjing
namespace System

open Blockchain (WithdrawalInitiated)
open Client (NoteFile RequestReads RequestResponse Tools)
open Credits (Deployment EdDSAPublicKey isKnownRoot getMerkleProof)
open Server (RequestBody)

structure State where
  chain : Credits.Machine
  server : Server.State

inductive Action where
  | chain (a : Credits.Action)
  | server (a : Server.Action)

/-- What the exit watcher takes of the contract's events. -/
def exitOf : Credits.Event → Option WithdrawalInitiated
  | .withdrawalInitiated _ exit => some ⟨exit.nullifier, exit.signalX, exit.signalY⟩
  | _ => none

def exitsOf (logs : List Credits.Log) : List WithdrawalInitiated :=
  logs.filterMap fun log => exitOf log.event

variable (d : Deployment) (cfg : Server.Config) (tools : Tools)

/-- An answer that comes from the contract is the contract's. -/
def groundAnswer (s : Credits.State) : Server.Answer → Server.Answer
  | .matched (some _) => .matched (some d.cMax)
  | .verified ⟨artifacts, isFull, some _⟩ slashing => .verified ⟨artifacts, isFull, some (isKnownRoot s)⟩ slashing
  | answer => answer

/-- The action as the server takes it, `none` for an exit the contract did not emit. -/
def groundAction (s : Credits.State) : Server.Action → Option Server.Action
  | .resume exec answer => some (.resume exec (groundAnswer d s answer))
  | .ingest exit slashing => if exit ∈ exitsOf s.logs then some (.ingest exit slashing) else none
  | a => some a

variable {d} in
/-- The C_MAX that a request goes on with is the contract's. -/
theorem groundAction_matched {s : Credits.State} {a : Server.Action} {i c : Nat}
    (h : groundAction d s a = some (.resume i (.matched (some c)))) : c = d.cMax := by
  unfold groundAction at h
  split at h
  next exec answer =>
    obtain ⟨-, hanswer⟩ := Server.Action.resume.inj (Option.some.inj h)
    unfold groundAnswer at hanswer
    split at hanswer <;> simp_all
  next => split at h <;> simp at h
  next hresume _ =>
    obtain rfl := Option.some.inj h
    exact absurd rfl (hresume i _)

def State.step (s : State) : Action → State
  | .chain a => { s with chain := s.chain.step d a }
  | .server a =>
    match groundAction d s.chain.committed a with
    | some a => { s with server := s.server.step cfg a }
    | none => s

variable {d cfg} in
/-- The server takes a step of its own, or an exit is dropped that the contract did not emit. -/
theorem State.step_server (s : State) (a : Server.Action)
    : s.step d cfg (.server a) = s
      ∨ ∃ a', groundAction d s.chain.committed a = some a'
        ∧ s.step d cfg (.server a) = { s with server := s.server.step cfg a' } := by
  simp only [State.step]
  cases groundAction d s.chain.committed a with
  | none => exact Or.inl rfl
  | some a' => exact Or.inr ⟨a', rfl, rfl⟩

def init (rows : Js.Map String Server.StoredSignal) : State where
  chain := Credits.deploy d
  server := Server.init rows

/-- A `proveRequest` under way, with what it has read so far. -/
structure Proving where
  payload : String
  model : Option String
  note : Option Credits.Note
  path : Option (List (Nat × Nat))
  root : Option Nat
  key : Option EdDSAPublicKey

/-- The owner of a note runs one command at a time. -/
structure Session where
  system : State
  note : NoteFile
  proving : Option Proving
  -- how many roots had been pushed when the owner last read the root; no code reads it
  readAt : Nat

inductive Command where
  -- anything the contract, the server or anybody else does
  | system (a : Action)
  | request (payload : String) (model : Option String)
  -- `getNote`
  | readNote
  -- `getMerkleProof`
  | readPath
  -- `merkleRoot` and `serverPublicKey`, which are awaited together
  | readRoot
  | readKey
  | prove (nonce rerandomizer : Nat)
  | receive (response : RequestResponse)
  -- the command is stopped
  | abort

def State.pushes (s : State) : Nat := (Credits.pushedRoots s.chain.committed.logs).length

namespace Session

variable (w : Session)

def committed : Credits.State := w.system.chain.committed

/-- `proveRequest` while a request is pending returns without a read. -/
def request (payload : String) (model : Option String) : Session :=
  match w.proving, w.note.pending with
  | none, none => { w with proving := some ⟨payload, model, none, none, none, none⟩ }
  | _, _ => w

/-- `onchainNote` throws unless the note is active. -/
def readNote : Session :=
  match w.proving with
  | some ⟨payload, model, none, path, root, key⟩ =>
    let onchain := w.committed.notes (Client.commitmentOf tools w.note)
    if onchain.status = .active then
      { w with proving := some ⟨payload, model, some onchain, path, root, key⟩ }
    else
      { w with proving := none }
  | _ => w

def readPath : Session :=
  match w.proving with
  | some ⟨payload, model, some note, none, root, key⟩ =>
    match getMerkleProof w.committed note.leafIndex with
    | .ok path => { w with proving := some ⟨payload, model, some note, some path, root, key⟩ }
    | .error _ => { w with proving := none }
  | _ => w

def readRoot : Session :=
  match w.proving with
  | some ⟨payload, model, note, some path, none, key⟩ =>
    { w with
      proving := some ⟨payload, model, note, some path, some w.committed.merkleRoot, key⟩
      readAt := w.system.pushes }
  | _ => w

def readKey : Session :=
  match w.proving with
  | some ⟨payload, model, note, some path, root, none⟩ =>
    { w with proving := some ⟨payload, model, note, some path, root, some w.committed.serverPublicKey⟩ }
  | _ => w

def prove (nonce rerandomizer : Nat) : Session :=
  match w.proving with
  | some ⟨payload, model, some note, some path, some root, some key⟩ =>
    match Client.proveRequest tools w.note payload model ⟨note, path, root, d.cMax, key⟩ nonce
        rerandomizer with
    | some (_, note) => { w with note := note, proving := none }
    | none => { w with proving := none }
  | _ => w

def receive (response : RequestResponse) : Session :=
  match w.proving, Client.receive tools w.note response w.committed.serverPublicKey with
  | none, some note => { w with note := note }
  | _, _ => w

def step (w : Session) : Command → Session
  | .system a => { w with system := w.system.step d cfg a }
  | .request payload model => w.request payload model
  | .readNote => w.readNote tools
  | .readPath => w.readPath
  | .readRoot => w.readRoot
  | .readKey => w.readKey
  | .prove nonce rerandomizer => w.prove d tools nonce rerandomizer
  | .receive response => w.receive tools response
  | .abort => { w with proving := none }

/-- A new note, next to a contract that is just deployed and a server with these rows. -/
def start (rows : Js.Map String Server.StoredSignal) (secretKey : F) : Session where
  system := init d rows
  note := Client.newNote secretKey
  proving := none
  readAt := 0

def run (rows : Js.Map String Server.StoredSignal) (secretKey : F) (commands : List Command) : Session :=
  commands.foldl (step d cfg tools) (start d rows secretKey)

@[simp]
theorem run_nil (rows : Js.Map String Server.StoredSignal) (secretKey : F)
    : run d cfg tools rows secretKey [] = start d rows secretKey := rfl

@[simp]
theorem run_concat (rows : Js.Map String Server.StoredSignal) (secretKey : F) (commands : List Command)
    (c : Command)
    : run d cfg tools rows secretKey (commands ++ [c])
      = (run d cfg tools rows secretKey commands).step d cfg tools c := by
  simp [run]

end Session

end System
end Longjing
