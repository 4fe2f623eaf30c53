import Longjing.Client.Signals
import Longjing.Server.Wire

/-!
This module contains the note's file as a text, and `prove.ts` over it: every command reads the file, and
writes it before anything is printed. What it prints is read by the server as the client made it.
-/

namespace Longjing
namespace Client

open JsonText Js
open Server (RequestBody readProof stringField)
open Credits (EdDSAPublicKey TREE_DEPTH)
open Circuit (RequestInputs RequestOutputs)

/-- `JSON.stringify(value, null, 2)` and a line break, which `console.log` adds, too. -/
def stringifyIndented (value : Value) : String := String.ofList (write 2 0 value ++ ['\n'])

def decimal (n : Int) : Value := .string (toString n)

def bodyJson (body : RequestBody) : Value :=
  .object ([
    ("payload", .string body.payload),
    ("nonce", .string body.nonce),
    ("nullifier", .string body.nullifier),
    ("signal", .object [("x", .string body.signal.x), ("y", .string body.signal.y)]),
    ("proof", .string body.proof),
    ("merkleRoot", .string body.merkleRoot),
    ("accumulator", .object [("x", .string body.accumulator.x), ("y", .string body.accumulator.y)])]
    ++ (body.model.map fun model => ("model", .string model)).toList)

def openingJson (opening : NoteOpening) : Value :=
  .object [("refunds", decimal opening.refunds), ("index", decimal opening.index),
    ("blinding", decimal opening.blinding)]

def signatureJson (signature : Signature) : Value :=
  .object [("R8x", decimal signature.R8x), ("R8y", decimal signature.R8y), ("S", decimal signature.S)]

def keyJson (key : EdDSAPublicKey) : Value := .object [("x", decimal key.x), ("y", decimal key.y)]

def pendingJson (pending : Pending) : Value :=
  .object [("rerandomizer", decimal pending.rerandomizer), ("body", bodyJson pending.body)]

def orNull {α : Type} (json : α → Value) : Option α → Value
  | some a => json a
  | none => .null

/-- The file, with the two fields that say where the contract is. -/
structure StoredNote extends NoteFile where
  rpcUrl : String
  contract : String

def StoredNote.json (note : StoredNote) : Value :=
  .object [
    ("secretKey", decimal note.secretKey),
    ("rpcUrl", .string note.rpcUrl),
    ("contract", .string note.contract),
    ("opening", openingJson note.opening),
    ("signature", orNull signatureJson note.signature),
    ("signedBy", orNull keyJson note.signedBy),
    ("pending", orNull pendingJson note.pending)]

/-!
# Reading

`none` stands for a file of another shape; every number is read with `BigInt`.
-/

def readInt (name : String) (value : Value) : Option Int := do
  let text ← stringField name value
  BigInt text

def readNat (name : String) (value : Value) : Option Nat := do
  let n ← readInt name value
  if 0 ≤ n then some n.toNat else none

def readNullable {α : Type} (read : Value → Option α) (value : Value) : Option (Option α) :=
  match value with
  | .null => some none
  | value => (read value).map some

def readOpening (value : Value) : Option NoteOpening := do
  let refunds ← readInt "refunds" value
  let index ← readInt "index" value
  let blinding ← readInt "blinding" value
  some ⟨refunds, index, blinding⟩

def readSignature (value : Value) : Option Signature := do
  let R8x ← readInt "R8x" value
  let R8y ← readInt "R8y" value
  let S ← readInt "S" value
  some ⟨R8x, R8y, S⟩

def readKey (value : Value) : Option EdDSAPublicKey := do
  let x ← readNat "x" value
  let y ← readNat "y" value
  some ⟨x, y⟩

def readPending (value : Value) : Option Pending := do
  let rerandomizer ← readNat "rerandomizer" value
  let body ← value.get? "body"
  let body ← RequestBody.ofJson body
  some ⟨rerandomizer, body⟩

def StoredNote.ofJson (value : Value) : Option StoredNote := do
  let secretKey ← readNat "secretKey" value
  let rpcUrl ← stringField "rpcUrl" value
  let contract ← stringField "contract" value
  let opening ← value.get? "opening"
  let opening ← readOpening opening
  let signature ← value.get? "signature"
  let signature ← readNullable readSignature signature
  let signedBy ← value.get? "signedBy"
  let signedBy ← readNullable readKey signedBy
  let pending ← value.get? "pending"
  let pending ← readNullable readPending pending
  some ⟨⟨secretKey, opening, signature, signedBy, pending⟩, rpcUrl, contract⟩

def writeNote (note : StoredNote) : String := stringifyIndented note.json

def readNote (text : String) : Option StoredNote := do
  let value ← parse text.toList
  StoredNote.ofJson value

/-- What the server makes of a body that was printed. -/
def readBody (text : String) : Option RequestBody := do
  let value ← parse text.toList
  RequestBody.ofJson value

/-!
# Round trips
-/

theorem parse_stringifyIndented (value : Value) : parse (stringifyIndented value).toList = some value := by
  rw [stringifyIndented, String.toList_ofList]
  exact parse_write 2 value (by simp [JsonText.isSpace])

theorem ofJson_bodyJson (body : RequestBody) : RequestBody.ofJson (bodyJson body) = some body := by
  obtain ⟨payload, nonce, nullifier, ⟨x, y⟩, proof, merkleRoot, ⟨x', y'⟩, model⟩ := body
  cases model <;>
    simp [bodyJson, RequestBody.ofJson, stringField, Server.optionalStringField, Server.hasOnly, Value.get?]

theorem readBody_stringify (body : RequestBody) : readBody (stringifyIndented (bodyJson body)) = some body := by
  unfold readBody
  rw [parse_stringifyIndented]
  exact ofJson_bodyJson body

theorem readOpening_json (opening : NoteOpening) : readOpening (openingJson opening) = some opening := by
  simp [openingJson, readOpening, readInt, stringField, decimal, Value.get?]

theorem readSignature_json (signature : Signature) : readSignature (signatureJson signature) = some signature := by
  simp [signatureJson, readSignature, readInt, stringField, decimal, Value.get?]

theorem readKey_json (key : EdDSAPublicKey) : readKey (keyJson key) = some key := by
  simp [keyJson, readKey, readNat, readInt, stringField, decimal, Value.get?]

theorem readPending_json (pending : Pending) : readPending (pendingJson pending) = some pending := by
  simp [pendingJson, readPending, readNat, readInt, stringField, decimal, Value.get?, ofJson_bodyJson]

theorem readNullable_orNull {α : Type} {json : α → Value} {read : Value → Option α}
    (h : ∀ a, read (json a) = some a) (hne : ∀ a, json a ≠ .null) (a : Option α)
    : readNullable read (orNull json a) = some a := by
  cases a with
  | none => rfl
  | some a =>
    have hread := h a
    have hne := hne a
    unfold readNullable orNull
    simp only
    rw [hread]
    rfl

theorem readNote_writeNote (note : StoredNote) : readNote (writeNote note) = some note := by
  obtain ⟨⟨secretKey, opening, signature, signedBy, pending⟩, rpcUrl, contract⟩ := note
  have hsignature := readNullable_orNull readSignature_json (by simp [signatureJson]) signature
  have hsignedBy := readNullable_orNull readKey_json (by simp [keyJson]) signedBy
  have hpending := readNullable_orNull readPending_json (by simp [pendingJson]) pending
  unfold readNote writeNote
  rw [parse_stringifyIndented]
  simp [StoredNote.json, StoredNote.ofJson, readNat, readInt, stringField, decimal, Value.get?,
    readOpening_json, hsignature, hsignedBy, hpending]

/-!
# The commands
-/

inductive Printed where
  | commitment (commitment : Nat)
  -- a body for `POST /longjing/request`
  | body (text : String)
  | opening (text : String)
  -- the arguments of `initiateWithdrawal`
  | withdrawal (args : Credits.WithdrawalArgs)

/-- The note's file, and what was printed, the last one first. -/
structure Disk where
  file : Option String
  printed : List Printed

namespace Disk

inductive Command where
  -- `randomBelow(FIELD_MODULUS)` is the secret key
  | note (rpcUrl contract : String) (secretKey : F)
  | on (command : Client.Command)
  -- `withdrawal` with its last argument
  | claim (recipient : Nat) (n : String) (reads : ExitReads)

def empty : Disk := ⟨none, []⟩

section Run

variable (tools : Tools)

/-- A command on the note that was read. -/
def stepNote (d : Disk) (note : StoredNote) : Client.Command → Disk
  | .request payload model reads nonce rerandomizer =>
    match proveRequest tools note.toNoteFile payload model reads nonce rerandomizer with
    | some (body, changed) =>
      ⟨some (writeNote ⟨changed, note.rpcUrl, note.contract⟩), .body (stringifyIndented (bodyJson body)) :: d.printed⟩
    | none => d
  | .receive response key =>
    match receive tools note.toNoteFile response key with
    | some changed =>
      ⟨some (writeNote ⟨changed, note.rpcUrl, note.contract⟩),
        .opening (stringifyIndented (.object [("opening", openingJson changed.opening)])) :: d.printed⟩
    | none => d
  | .withdrawal recipient reads =>
    match proveWithdrawal tools note.toNoteFile recipient none reads with
    | some args => { d with printed := .withdrawal args :: d.printed }
    | none => d

/-- An exit at an index that is given, from the note that was read. -/
def claimNote (d : Disk) (note : StoredNote) (recipient : Nat) (n : String) (reads : ExitReads) : Disk :=
  match BigInt n with
  | none => d
  | some n =>
    match proveWithdrawal tools note.toNoteFile recipient (some n) reads with
    | some args => { d with printed := .withdrawal args :: d.printed }
    | none => d

/-- A note is never written over another one. -/
def step (d : Disk) : Command → Disk
  | .note rpcUrl contract secretKey =>
    match d.file with
    | some _ => d
    | none =>
      ⟨some (writeNote ⟨newNote secretKey, rpcUrl, contract⟩),
        .commitment (commitmentOf tools (newNote secretKey)) :: d.printed⟩
  | .on command =>
    match d.file.bind readNote with
    | some note => d.stepNote tools note command
    | none => d
  | .claim recipient n reads =>
    match d.file.bind readNote with
    | some note => d.claimNote tools note recipient n reads
    | none => d

def run (commands : List Command) : Disk := commands.foldl (step tools) empty

theorem run_concat (commands : List Command) (c : Command)
    : run tools (commands ++ [c]) = (run tools commands).step tools c := by
  simp [run]

end Run

end Disk

/-- The owner over all commands of `prove.ts` on its note: an exit at an index that is given signs at that
index. -/
def Owner.follow (tools : Tools) (o : Owner) : Disk.Command → Owner
  | .note _ _ _ => o
  | .on command => o.step tools command
  | .claim recipient n reads =>
    match BigInt n with
    | none => o
    | some n =>
      match proveWithdrawal tools o.note recipient (some n) reads with
      | some args =>
        { o with emitted := ⟨n, true, toString args.nullifier, toString reads.signalX⟩ :: o.emitted }
      | none => o

namespace Disk

/-- The signal in what was printed: whether it is an exit, its nullifier, and its x in a request. -/
def signal? : Printed → Option (Bool × String × Option String)
  | .body text => (readBody text).map fun body => (false, body.nullifier, some body.signal.x)
  | .withdrawal args => some (true, toString args.nullifier, none)
  | _ => none

def emitted (e : Emission) : Bool × String × Option String :=
  (e.exit, e.nullifier, if e.exit then none else some e.x)

/-- The file holds the owner's note, and what was printed are the owner's signals. -/
structure Holds (d : Disk) (o : Owner) (rpcUrl contract : String) : Prop where
  file : d.file = some (writeNote ⟨o.note, rpcUrl, contract⟩)
  printed : d.printed.filterMap signal? = o.emitted.map emitted

/-- The server reads the proof in the body as the prover made it, next to the outputs it is for. -/
def Proved (tools : Tools) (body : RequestBody) : Prop :=
  ∃ inputs proof o, tools.fullProveRequest inputs = some (proof, o)
    ∧ readProof body.proof = .ok (some proof.snarkjs)
    ∧ body.nullifier = toString o.nullifier.val ∧ body.signal.y = toString o.signalY.val
    ∧ body.accumulator = ⟨toString o.accumulator.1.val, toString o.accumulator.2.val⟩

variable {tools : Tools} {d : Disk} {o : Owner} {rpcUrl contract : String}

theorem Holds.read (h : d.Holds o rpcUrl contract) : d.file.bind readNote = some ⟨o.note, rpcUrl, contract⟩ := by
  rw [h.file, Option.bind_some, readNote_writeNote]

theorem Holds.exit (h : d.Holds o rpcUrl contract) (index : Int) (args : Credits.WithdrawalArgs) (x : String)
    : Holds { d with printed := .withdrawal args :: d.printed }
        { o with emitted := ⟨index, true, toString args.nullifier, x⟩ :: o.emitted } rpcUrl contract := by
  refine ⟨h.file, ?_⟩
  have hsignal : signal? (.withdrawal args) = some (true, toString args.nullifier, none) := rfl
  simp only [List.filterMap_cons_some hsignal, h.printed]
  rfl

theorem Holds.on (h : d.Holds o rpcUrl contract) (c : Client.Command)
    : (d.step tools (.on c)).Holds (o.step tools c) rpcUrl contract := by
  simp only [Disk.step, h.read]
  cases c with
  | request payload model reads nonce rerandomizer =>
    simp only [stepNote, Owner.step]
    cases proveRequest tools o.note payload model reads nonce rerandomizer with
    | none => exact h
    | some proved =>
      refine ⟨rfl, ?_⟩
      have hsignal : signal? (.body (stringifyIndented (bodyJson proved.1)))
          = some (false, proved.1.nullifier, some proved.1.signal.x) := by
        rw [signal?, readBody_stringify]
        rfl
      rw [List.filterMap_cons_some hsignal, h.printed]
      rfl
  | receive response key =>
    simp only [stepNote, Owner.step]
    cases Client.receive tools o.note response key with
    | none => exact h
    | some note =>
      refine ⟨rfl, ?_⟩
      rw [List.filterMap_cons_none rfl, h.printed]
  | withdrawal recipient reads =>
    simp only [stepNote, Owner.step]
    cases proveWithdrawal tools o.note recipient none reads with
    | none => exact h
    | some args => exact h.exit ..

theorem Holds.step (h : d.Holds o rpcUrl contract) (c : Command)
    : (d.step tools c).Holds (o.follow tools c) rpcUrl contract := by
  cases c with
  | note rpcUrl' contract' secretKey =>
    simp only [Disk.step, h.file]
    exact h
  | on command => exact h.on command
  | claim recipient n reads =>
    simp only [Disk.step, h.read, claimNote, Owner.follow]
    cases BigInt n with
    | none => exact h
    | some n =>
      cases hargs : proveWithdrawal tools o.note recipient (some n) reads with
      | none =>
        simp only [hargs]
        exact h
      | some args =>
        simp only [hargs]
        exact h.exit ..

theorem Holds.start (tools : Tools) (secretKey : F) (rpcUrl contract : String)
    : (empty.step tools (.note rpcUrl contract secretKey)).Holds (Owner.start secretKey) rpcUrl contract :=
  ⟨rfl, rfl⟩

/-- Every body in the file, or that was printed, carries the proof that was made for it. -/
structure Written (tools : Tools) (d : Disk) : Prop where
  pending : ∀ note, d.file.bind readNote = some note → ∀ pending, note.pending = some pending →
    Proved tools pending.body
  printed : ∀ text, .body text ∈ d.printed → ∃ body, readBody text = some body ∧ Proved tools body

theorem Written.write (h : Written tools d) {note : StoredNote} {printed : Printed}
    (hpending : ∀ pending, note.pending = some pending → Proved tools pending.body)
    (hprinted : ∀ text, printed = .body text → ∃ body, readBody text = some body ∧ Proved tools body)
    : Written tools ⟨some (writeNote note), printed :: d.printed⟩ where
  pending read hread pending hp := by
    rw [Option.bind_some, readNote_writeNote] at hread
    cases hread
    exact hpending pending hp
  printed text htext := by
    rcases List.mem_cons.mp htext with heq | htext
    . exact hprinted text heq.symm
    . exact h.printed text htext

theorem proved_of_proveFresh {note changed : NoteFile} {payload : String} {model : Option String}
    {reads : RequestReads} {nonce rerandomizer : Nat} {body : RequestBody}
    (h : proveFresh tools note payload model reads nonce rerandomizer = some (body, changed))
    : Proved tools body ∧ changed.pending = some ⟨rerandomizer, body⟩ := by
  obtain ⟨-, inputs, proof, o, -, hprove, rfl, rfl⟩ := proveFresh_eq_some.mp h
  exact ⟨⟨inputs, proof, o, hprove, readProof_wire proof, rfl, rfl, rfl⟩, rfl⟩

theorem Written.exit (h : Written tools d) (args : Credits.WithdrawalArgs)
    : Written tools { d with printed := .withdrawal args :: d.printed } where
  pending := h.pending
  printed text htext := by
    rcases List.mem_cons.mp htext with heq | htext
    . cases heq
    . exact h.printed text htext

theorem Written.step (h : Written tools d) (c : Command) : Written tools (d.step tools c) := by
  cases c with
  | note rpcUrl contract secretKey =>
    cases hfile : d.file with
    | some text =>
      simp only [Disk.step, hfile]
      exact h
    | none =>
      simp only [Disk.step, hfile]
      refine h.write (fun pending hp => ?_) (fun text htext => ?_)
      . cases hp
      . cases htext
  | on command =>
    cases hread : d.file.bind readNote with
    | none =>
      simp only [Disk.step, hread]
      exact h
    | some note =>
      simp only [Disk.step, hread]
      have hpending := h.pending note hread
      cases command with
      | request payload model reads nonce rerandomizer =>
        simp only [stepNote]
        cases hprove : proveRequest tools note.toNoteFile payload model reads nonce rerandomizer with
        | none => exact h
        | some proved =>
          obtain ⟨body, changed⟩ := proved
          -- a pending body is printed again, a new one is pending from now on
          have hbody : Proved tools body ∧ ∃ rerandomizer, changed.pending = some ⟨rerandomizer, body⟩ := by
            unfold proveRequest at hprove
            cases hp : note.pending with
            | some pending =>
              simp only [hp, Option.some.injEq, Prod.mk.injEq] at hprove
              obtain ⟨rfl, rfl⟩ := hprove
              exact ⟨hpending pending hp, pending.rerandomizer, hp⟩
            | none =>
              simp only [hp] at hprove
              obtain ⟨hproved, hchanged⟩ := proved_of_proveFresh hprove
              exact ⟨hproved, rerandomizer, hchanged⟩
          obtain ⟨hproved, rerandomizer', hchanged⟩ := hbody
          refine h.write (fun pending hp => ?_) (fun text htext => ?_)
          . cases hchanged.symm.trans hp
            exact hproved
          . cases htext
            exact ⟨body, readBody_stringify body, hproved⟩
      | receive response key =>
        simp only [stepNote]
        cases hreceive : Client.receive tools note.toNoteFile response key with
        | none => exact h
        | some changed =>
          obtain ⟨_, _, _, -, -, -, -, -, -, -, -, rfl⟩ := receive_eq_some.mp hreceive
          refine h.write (fun pending hp => ?_) (fun text htext => ?_)
          . cases hp
          . cases htext
      | withdrawal recipient reads =>
        simp only [stepNote]
        cases proveWithdrawal tools note.toNoteFile recipient none reads with
        | none => exact h
        | some args => exact h.exit args
  | claim recipient n reads =>
    cases hread : d.file.bind readNote with
    | none =>
      simp only [Disk.step, hread]
      exact h
    | some note =>
      simp only [Disk.step, hread, claimNote]
      cases BigInt n with
      | none => exact h
      | some n =>
        cases hargs : proveWithdrawal tools note.toNoteFile recipient (some n) reads with
        | none =>
          simp only [hargs]
          exact h
        | some args =>
          simp only [hargs]
          exact h.exit args

/-- What the commands come to: nothing without a note, and the owner's run from the one that was made first. -/
inductive Follows (tools : Tools) (d : Disk) (commands : List Command) : Prop where
  | nothing (file : d.file = none) (printed : d.printed = [])
  | owner (before after : List Command) (rpcUrl contract : String) (secretKey : F)
      (commands_eq : commands = before ++ .note rpcUrl contract secretKey :: after)
      (holds : d.Holds (after.foldl (Owner.follow tools) (Owner.start secretKey)) rpcUrl contract)

theorem Follows.step {commands : List Command} (h : Follows tools d commands) (c : Command)
    : Follows tools (d.step tools c) (commands ++ [c]) := by
  cases h with
  | nothing hfile hprinted =>
    cases c with
    | note rpcUrl contract secretKey =>
      refine .owner commands [] rpcUrl contract secretKey rfl ?_
      obtain rfl : d = empty := by
        cases d
        simp_all [empty]
      exact .start tools secretKey rpcUrl contract
    | on command =>
      simp only [Disk.step, hfile, Option.bind_none]
      exact .nothing hfile hprinted
    | claim recipient n reads =>
      simp only [Disk.step, hfile, Option.bind_none]
      exact .nothing hfile hprinted
  | owner before after rpcUrl contract secretKey hcommands hholds =>
    refine .owner before (after ++ [c]) rpcUrl contract secretKey (by simp [hcommands]) ?_
    rw [List.foldl_append]
    exact hholds.step c

/-- Over the file the commands are the owner's: what one of them wrote is what the next one reads, every
signal that was printed is one that the owner emitted, and the server reads each body as it was made, with
the prover's proof in it. -/
theorem run_follows (tools : Tools) (commands : List Command)
    : Follows tools (run tools commands) commands
      ∧ ∀ text, .body text ∈ (run tools commands).printed →
          ∃ body, readBody text = some body ∧ Proved tools body := by
  suffices Follows tools (run tools commands) commands ∧ Written tools (run tools commands) from
    ⟨this.1, this.2.printed⟩
  induction commands using List.reverseRecOn with
  | nil =>
    have hwritten : Written tools empty := by
      constructor
      . intro note hread
        cases hread
      . intro text htext
        cases htext
    exact ⟨.nothing rfl rfl, hwritten⟩
  | append_singleton commands c ih =>
    rw [run_concat]
    exact ⟨ih.1.step c, ih.2.step c⟩

end Disk

section Example

def exampleNote : Disk.Command := .note "http://localhost:8545" "0x5FbDB2315678afecb367f032d93F642f64180aa3" 2

/-- A note, an exit at the index 1, which is given in hex, and the first request with its answer. -/
def exampleCommands : List Disk.Command :=
  [exampleNote, .claim 2009 "0x1" exitReads, .on firstRequest, .on (.receive (firstResponse 0) signedKey)]

theorem step_request {d : Disk} {tools : Tools} {note changed : StoredNote} {payload : String} {model : Option String}
    {reads : RequestReads} {nonce rerandomizer : Nat} {body : RequestBody} (hfile : d.file = some (writeNote note))
    (hprove : proveRequest tools note.toNoteFile payload model reads nonce rerandomizer
      = some (body, changed.toNoteFile)) (hrpcUrl : changed.rpcUrl = note.rpcUrl)
    (hcontract : changed.contract = note.contract)
    : d.step tools (.on (.request payload model reads nonce rerandomizer))
      = ⟨some (writeNote changed), .body (stringifyIndented (bodyJson body)) :: d.printed⟩ := by
  simp only [Disk.step, hfile, Option.bind_some, readNote_writeNote, Disk.stepNote, hprove, ← hrpcUrl, ← hcontract]

theorem step_receive {d : Disk} {tools : Tools} {note changed : StoredNote} {response : RequestResponse}
    {key : EdDSAPublicKey} (hfile : d.file = some (writeNote note))
    (hreceive : receive tools note.toNoteFile response key = some changed.toNoteFile)
    (hrpcUrl : changed.rpcUrl = note.rpcUrl) (hcontract : changed.contract = note.contract)
    : d.step tools (.on (.receive response key))
      = ⟨some (writeNote changed),
          .opening (stringifyIndented (.object [("opening", openingJson changed.opening)])) :: d.printed⟩ := by
  simp only [Disk.step, hfile, Option.bind_some, readNote_writeNote, Disk.stepNote, hreceive, ← hrpcUrl, ← hcontract]

theorem step_claim {d : Disk} {tools : Tools} {note : StoredNote} {recipient : Nat} {n : String} {index : Int}
    {reads : ExitReads} {args : Credits.WithdrawalArgs} (hfile : d.file = some (writeNote note))
    (hindex : BigInt n = some index)
    (hargs : proveWithdrawal tools note.toNoteFile recipient (some index) reads = some args)
    : d.step tools (.claim recipient n reads) = { d with printed := .withdrawal args :: d.printed } := by
  simp only [Disk.step, hfile, Option.bind_some, readNote_writeNote, Disk.claimNote, hindex, hargs]

theorem run_exampleCommands
    : ∃ opening text args commitment, (Disk.run signedTools exampleCommands).printed
        = [.opening opening, .body text, .withdrawal args, .commitment commitment] := by
  have hindex : BigInt "0x1" = some 1 := by decide +kernel
  obtain ⟨args, hargs, -⟩ := @proveWithdrawal_claim (newNote 2) (some 1) rfl rfl rfl (Or.inr rfl)
  obtain ⟨inputs, proof, -, -, hfresh⟩ := proveFresh_signed secretKey_two (provable_genesis signedTools 2 signedKey)
    (by simp [accumulatorInputs, newNote]) "hi" 7 5
  have hrequest : proveRequest signedTools (newNote 2) "hi" none signedReads 7 5 = _ := hfresh
  generalize requestBody "hi" none 7 (payloadSignalX signedTools "hi" 7) noteRoot proof
    (inputs.outputs signedPoseidon) = body at hrequest
  have hreceive : receive signedTools { newNote 2 with pending := some ⟨5, body⟩ } (firstResponse 0) signedKey
      = some (foldResponse { newNote 2 with pending := some ⟨5, body⟩ } signedKey 5 0 signatureFirst) :=
    receive_signed secretKey_two rfl rfl rfl (by decide +kernel)
      (show _ = 3022870700604729348575399342308553797065667588362272857895082650329404848033 by decide +kernel)
      (by simp [signatures]) (by decide)
  have hfour (a b c d : Disk.Command) : Disk.run signedTools [a, b, c, d]
      = (((Disk.empty.step signedTools a).step signedTools b).step signedTools c).step signedTools d := rfl
  have hrun := hfour exampleNote (.claim 2009 "0x1" exitReads) (.on firstRequest)
    (.on (.receive (firstResponse 0) signedKey))
  obtain ⟨rpcUrl, contract, hfile, hprinted⟩ : ∃ rpcUrl contract,
      (Disk.empty.step signedTools exampleNote).file = some (writeNote ⟨newNote 2, rpcUrl, contract⟩)
        ∧ (Disk.empty.step signedTools exampleNote).printed = [.commitment (commitmentOf signedTools (newNote 2))] :=
    ⟨_, _, rfl, rfl⟩
  generalize Disk.empty.step signedTools exampleNote = d at hrun hfile hprinted
  have hbody (d : Disk) (h : d.file = some (writeNote ⟨newNote 2, rpcUrl, contract⟩)) :=
    @step_request d signedTools _ ⟨{ newNote 2 with pending := some ⟨5, body⟩ }, rpcUrl, contract⟩ _ _ _ _ _ _ h
      hrequest
      rfl rfl
  have hopening (d : Disk)
      (h : d.file = some (writeNote ⟨{ newNote 2 with pending := some ⟨5, body⟩ }, rpcUrl, contract⟩)) :=
    @step_receive d signedTools _ ⟨_, rpcUrl, contract⟩ _ _ h hreceive rfl rfl
  have hfirst : firstRequest = .request "hi" none signedReads 7 5 := rfl
  rw [step_claim hfile hindex hargs, hfirst, hbody ⟨d.file, .withdrawal args :: d.printed⟩ hfile, hopening _ rfl]
    at hrun
  exact ⟨_, _, args, _, by rw [exampleCommands, hfirst, hrun, hprinted]⟩

theorem run_follows_answered
    : (∃ opening text args commitment, (Disk.run signedTools exampleCommands).printed
          = [.opening opening, .body text, .withdrawal args, .commitment commitment])
      ∧ Disk.Follows signedTools (Disk.run signedTools exampleCommands) exampleCommands
      ∧ ∀ text, .body text ∈ (Disk.run signedTools exampleCommands).printed →
          ∃ body, readBody text = some body ∧ Disk.Proved signedTools body :=
  ⟨run_exampleCommands, Disk.run_follows signedTools exampleCommands⟩

end Example

end Client
end Longjing
