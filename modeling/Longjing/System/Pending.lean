import Longjing.Client.Prove
import Longjing.Credits.Lemmas.Admin
import Longjing.Server.Lemmas.Once
import Longjing.System.Basic
import Mathlib.Data.List.GetD

/-!
A pending request against the history of roots: whether the body that a retry sends again can still be
accepted.
-/

namespace Longjing
namespace System

open Client (NoteFile Pending RequestReads RequestResponse Tools)
open Credits (Deployment ROOT_HISTORY_SIZE RootHistory LatestRoot isKnownRoot pushedRoots)
open Server (RequestBody parseFieldElement)

/-- The server has a row for the nullifier of the body. -/
def State.Recorded (s : State) (body : RequestBody) : Prop :=
  ∃ n, parseFieldElement body.nullifier = some n ∧ s.server.store.get (toString n) ≠ none

/-- The contract knows the root of the body, as the server asks for it. -/
def State.Known (s : State) (body : RequestBody) : Prop :=
  Server.knownRoot ⟨true, false, some (isKnownRoot s.chain.committed)⟩ body.merkleRoot = some true

variable (d : Deployment) (cfg : Server.Config) (tools : Tools)

/-- What a pending note gets from `proveRequest` has a row already, or a root that is still known. -/
def Session.NotWedged (w : Session) : Prop :=
  w.note.pending ≠ none → ∀ (payload : String) (model : Option String) (reads : RequestReads)
    (nonce rerandomizer : Nat), ∃ body,
      Client.proveRequest tools w.note payload model reads nonce rerandomizer = some (body, w.note)
        ∧ (w.system.Recorded body ∨ w.system.Known body)

/-- A root is read, and the request over it has no row yet. -/
def Session.Frozen (w : Session) : Prop :=
  (∃ p, w.proving = some p ∧ p.root ≠ none)
    ∨ ∃ pending, w.note.pending = some pending ∧ ¬ w.system.Recorded pending.body

/-- A root that is pushed while the request has no row is not the `ROOT_HISTORY_SIZE`-th since the owner
read theirs, and the owner reads no zero. -/
structure Session.Timely (w : Session) (c : Command) : Prop where
  pushed : w.Frozen → (w.step d cfg tools c).system.pushes ≠ w.system.pushes →
    (w.step d cfg tools c).system.pushes < w.readAt + ROOT_HISTORY_SIZE
  nonzero : c = .readRoot → w.committed.merkleRoot ≠ 0

/-- The root is in the history, where the owner found it. -/
structure Session.Held (w : Session) (root : Nat) : Prop where
  ne_zero : root ≠ 0
  lt : root < FIELD_MODULUS
  le : w.readAt ≤ w.system.pushes
  recent : w.system.pushes < w.readAt + ROOT_HISTORY_SIZE
  slot : (pushedRoots w.committed.logs).getD (w.system.pushes - w.readAt) 0 = root

structure Session.Live (w : Session) : Prop where
  reachable : ∃ actions, w.system.chain = Credits.run d actions
  alone : w.proving ≠ none → w.note.pending = none
  proving : ∀ p root, w.proving = some p → p.root = some root → w.Held root
  pending : ∀ p, w.note.pending = some p → w.system.Recorded p.body ∨
    ∃ root, p.body.merkleRoot = toString root ∧ w.Held root

variable {d cfg tools}

theorem State.Recorded.step {s : State} {body : RequestBody} (h : s.Recorded body) (a : Action)
    : (s.step d cfg a).Recorded body := by
  obtain ⟨n, hn, hrow⟩ := h
  refine ⟨n, hn, ?_⟩
  obtain ⟨signal, hsignal⟩ := Option.ne_none_iff_exists'.mp hrow
  cases a with
  | chain a => exact hrow
  | server a =>
    rcases s.step_server a with hstay | ⟨a', -, hstep⟩
    . rw [hstay]
      exact hrow
    . rw [hstep]
      show (s.server.step cfg a').store.get (toString n) ≠ none
      rw [Server.State.get_step hsignal a']
      simp

/-- The pushed roots only grow, at the front. -/
theorem State.pushedRoots_suffix {s : State} (h : ∃ actions, s.chain = Credits.run d actions) (a : Action)
    : pushedRoots s.chain.committed.logs <:+ pushedRoots (s.step d cfg a).chain.committed.logs := by
  obtain ⟨actions, hrun⟩ := h
  cases a with
  | chain a =>
    have hlogs : (Credits.run d actions).committed.logs
        <:+ (Credits.run d (actions ++ [a])).committed.logs :=
      @Credits.Machine.run_committed_step d _ (fun s s' => s.logs <:+ s'.logs) (Credits.roots_invariant d)
        (fun s => List.suffix_refl s.logs) (fun hst htu => hst.trans htu)
        (fun _ heffect => heffect.logs_suffix) actions a
    rw [Credits.run_concat, ← hrun] at hlogs
    exact hlogs.filterMap _
  | server a =>
    rcases s.step_server a with hstay | ⟨a', -, hstep⟩
    . rw [hstay]
    . rw [hstep]

theorem State.reachable_step {s : State} (h : ∃ actions, s.chain = Credits.run d actions) (a : Action)
    : ∃ actions, (s.step d cfg a).chain = Credits.run d actions := by
  obtain ⟨actions, hrun⟩ := h
  cases a with
  | chain a =>
    refine ⟨actions ++ [a], ?_⟩
    rw [Credits.run_concat, ← hrun]
    rfl
  | server a =>
    refine ⟨actions, ?_⟩
    rcases s.step_server a with hstay | ⟨a', -, hstep⟩
    . rw [hstay]
      exact hrun
    . rw [hstep]
      exact hrun

namespace Session

variable {w : Session}

theorem Held.known {root : Nat} {body : RequestBody} (h : w.Held root)
    (hreach : ∃ actions, w.system.chain = Credits.run d actions) (hbody : body.merkleRoot = toString root)
    : w.system.Known body := by
  obtain ⟨actions, hrun⟩ := hreach
  have hhistory : RootHistory w.system.chain.committed := by
    rw [hrun]
    exact (Credits.Machine.run_invariant_committed (Credits.roots_invariant d) actions).1
  have hknown := hhistory.isKnownRoot_of_getD h.ne_zero
    (by have := h.recent; have := h.le; omega) h.slot
  have hlt : (root : Int) < 2 ^ 256 := by
    have hmodulus : FIELD_MODULUS < 2 ^ 256 := by decide
    have := h.lt
    omega
  have hread : Js.BigInt (toString root) = some (root : Int) := Js.BigInt_repr root
  unfold State.Known Server.knownRoot
  rw [hbody, hread]
  simp only [Int.natCast_nonneg, hlt, and_self, if_true, Int.toNat_natCast, hknown]

theorem Held.system {root : Nat} (h : w.Held root)
    (hreach : ∃ actions, w.system.chain = Credits.run d actions) {a : Action}
    (htimely : (w.system.step d cfg a).pushes ≠ w.system.pushes →
      (w.system.step d cfg a).pushes < w.readAt + ROOT_HISTORY_SIZE)
    : Held { w with system := w.system.step d cfg a } root := by
  have hsuffix : pushedRoots w.committed.logs
      <:+ pushedRoots (w.system.step d cfg a).chain.committed.logs := State.pushedRoots_suffix hreach a
  obtain ⟨newer, hnewer⟩ := hsuffix
  have hpushes : (w.system.step d cfg a).pushes = newer.length + w.system.pushes := by
    unfold State.pushes
    rw [← hnewer, List.length_append]
    rfl
  have hle := h.le
  have hrecent := h.recent
  refine ⟨h.ne_zero, h.lt, ?_, ?_, ?_⟩
  . show w.readAt ≤ (w.system.step d cfg a).pushes
    omega
  . show (w.system.step d cfg a).pushes < w.readAt + ROOT_HISTORY_SIZE
    omega
  . show (pushedRoots (w.system.step d cfg a).chain.committed.logs).getD
      ((w.system.step d cfg a).pushes - w.readAt) 0 = root
    rw [← hnewer, List.getD_append_right _ _ _ _ (by omega), ← h.slot]
    congr 1
    omega

theorem held_readRoot {w' : Session} (hreach : ∃ actions, w.system.chain = Credits.run d actions)
    (hne : w.committed.merkleRoot ≠ 0) (hsystem : w'.system = w.system) (hreadAt : w'.readAt = w.system.pushes)
    : w'.Held w.committed.merkleRoot := by
  obtain ⟨actions, hrun⟩ := hreach
  have hlatest : LatestRoot d w.committed := by
    unfold committed
    rw [hrun]
    exact (Credits.Machine.run_invariant_committed (Credits.roots_invariant d) actions).2
  obtain ⟨older, hroots⟩ := hlatest.latest
  refine ⟨hne, hlatest.lt, ?_, ?_, ?_⟩
  . rw [hreadAt, hsystem]
  . rw [hreadAt, hsystem]
    exact Nat.lt_add_of_pos_right (by decide)
  . unfold committed at hroots ⊢
    rw [hreadAt, hsystem, Nat.sub_self, hroots, List.getD_cons_zero]

variable (d cfg) in
/-- What a command may do to the session. -/
inductive Step (w : Session) : Session → Prop where
  | stay : Step w w
  | system (a : Action) : Step w { w with system := w.system.step d cfg a }
  | drop : Step w { w with proving := none }
  | proceed (p : Proving)
    : w.note.pending = none →
      (∀ root, p.root = some root → ∃ q, w.proving = some q ∧ q.root = some root) →
      Step w { w with proving := some p }
  | readRoot (p : Proving)
    : w.note.pending = none → p.root = some w.committed.merkleRoot → w.committed.merkleRoot ≠ 0 →
      Step w { w with proving := some p, readAt := w.system.pushes }
  | prove (p : Proving) (root : Nat) (pending : Pending)
    : w.proving = some p → p.root = some root → pending.body.merkleRoot = toString root →
      Step w { w with note := { w.note with pending := some pending }, proving := none }
  | receive (note : NoteFile) : w.proving = none → note.pending = none → Step w { w with note := note }

theorem request_sound (payload : String) (model : Option String)
    : Step d cfg w (w.request payload model) := by
  unfold request
  split
  next _ hpending => exact .proceed _ hpending (by simp)
  next => exact .stay

section Reads

variable (halone : w.proving ≠ none → w.note.pending = none)

include halone

theorem readNote_sound : Step d cfg w (w.readNote tools) := by
  unfold readNote
  split
  next payload model path root key hproving =>
    have hpending := halone (by simp [hproving])
    simp only
    split
    . exact .proceed _ hpending fun root' hroot => ⟨_, hproving, hroot⟩
    . exact .drop
  next => exact .stay

theorem readPath_sound : Step d cfg w w.readPath := by
  unfold readPath
  split
  next payload model note root key hproving =>
    have hpending := halone (by simp [hproving])
    split
    . exact .proceed _ hpending fun root' hroot => ⟨_, hproving, hroot⟩
    . exact .drop
  next => exact .stay

theorem readRoot_sound (hnonzero : w.committed.merkleRoot ≠ 0) : Step d cfg w w.readRoot := by
  unfold readRoot
  split
  next payload model note path key hproving =>
    exact .readRoot _ (halone (by simp [hproving])) rfl hnonzero
  next => exact .stay

theorem readKey_sound : Step d cfg w w.readKey := by
  unfold readKey
  split
  next payload model note path root hproving =>
    exact .proceed _ (halone (by simp [hproving])) fun root' hroot => ⟨_, hproving, hroot⟩
  next => exact .stay

theorem prove_sound (nonce rerandomizer : Nat) : Step d cfg w (w.prove d tools nonce rerandomizer) := by
  unfold prove
  split
  next payload model note path root key hproving =>
    unfold Client.proveRequest
    rw [halone (by simp [hproving])]
    dsimp only
    split
    next body note' hfresh =>
      obtain ⟨-, inputs, proof, o, -, -, rfl, rfl⟩ := Client.proveFresh_eq_some.mp hfresh
      exact .prove _ root _ hproving rfl rfl
    next => exact .drop
  next => exact .stay

end Reads

theorem receive_sound (response : RequestResponse) : Step d cfg w (w.receive tools response) := by
  unfold receive
  split
  next note hproving hreceive =>
    obtain ⟨pending, refund, signature, -, -, -, -, -, -, -, -, rfl⟩ := Client.receive_eq_some.mp hreceive
    exact .receive _ hproving rfl
  next => exact .stay

theorem step_sound {c : Command} (halone : w.proving ≠ none → w.note.pending = none)
    (hnonzero : c = .readRoot → w.committed.merkleRoot ≠ 0) : Step d cfg w (w.step d cfg tools c) := by
  cases c with
  | system a => exact .system a
  | request payload model => exact request_sound payload model
  | readNote => exact readNote_sound halone
  | readPath => exact readPath_sound halone
  | readRoot => exact readRoot_sound halone (hnonzero rfl)
  | readKey => exact readKey_sound halone
  | prove nonce rerandomizer => exact prove_sound halone nonce rerandomizer
  | receive response => exact receive_sound response
  | abort => exact .drop

/-- `Held` looks at the system and the moment of the read only. -/
theorem Held.congr {w' : Session} {root : Nat} (h : w.Held root) (hsystem : w'.system = w.system)
    (hreadAt : w'.readAt = w.readAt) : w'.Held root := by
  obtain ⟨hne, hlt, hle, hrecent, hslot⟩ := h
  unfold committed at hslot
  refine ⟨hne, hlt, ?_, ?_, ?_⟩
  . rw [hsystem, hreadAt]
    exact hle
  . rw [hsystem, hreadAt]
    exact hrecent
  . unfold committed
    rw [hsystem, hreadAt]
    exact hslot

/-- The only step that loses a root is a push that comes too late. -/
theorem Live.step {c : Command} (h : w.Live d) (htimely : w.Timely d cfg tools c)
    : (w.step d cfg tools c).Live d := by
  have hsound : Step d cfg w (w.step d cfg tools c) := step_sound h.alone htimely.nonzero
  generalize hw' : w.step d cfg tools c = w' at hsound
  cases hsound with
  | stay => exact h
  | system a =>
    have hpushed := htimely.pushed
    rw [hw'] at hpushed
    refine ⟨State.reachable_step h.reachable a, h.alone, ?_, ?_⟩
    . intro p root hproving hroot
      have hfrozen : w.Frozen := Or.inl ⟨p, hproving, by simp [hroot]⟩
      exact (h.proving p root hproving hroot).system h.reachable (hpushed hfrozen)
    . intro p hpending
      -- once the row is there, the root does not matter any more
      by_cases hrecorded : w.system.Recorded p.body
      . exact Or.inl (hrecorded.step a)
      . obtain ⟨root, hbody, hheld⟩ := (h.pending p hpending).resolve_left hrecorded
        exact Or.inr ⟨root, hbody, hheld.system h.reachable (hpushed (Or.inr ⟨p, hpending, hrecorded⟩))⟩
  | drop =>
    refine ⟨h.reachable, by simp, by simp, ?_⟩
    intro p hpending
    rcases h.pending p hpending with hrecorded | ⟨root, hbody, hheld⟩
    . exact Or.inl hrecorded
    . exact Or.inr ⟨root, hbody, hheld.congr rfl rfl⟩
  | proceed p hnone hroots =>
    refine ⟨h.reachable, fun _ => hnone, ?_, by simp [hnone]⟩
    intro p' root hproving hroot
    obtain rfl := Option.some.inj hproving
    obtain ⟨q, hq, hqroot⟩ := hroots root hroot
    exact (h.proving q root hq hqroot).congr rfl rfl
  | readRoot p hnone hroot hnonzero =>
    refine ⟨h.reachable, fun _ => hnone, ?_, by simp [hnone]⟩
    intro p' root hproving hroot'
    obtain rfl := Option.some.inj hproving
    obtain rfl := Option.some.inj (hroot.symm.trans hroot')
    exact held_readRoot h.reachable hnonzero rfl rfl
  -- the body carries the root that was read
  | prove p root pending hproving hroot hbody =>
    refine ⟨h.reachable, by simp, by simp, ?_⟩
    intro p' hpending
    obtain rfl := Option.some.inj hpending
    exact Or.inr ⟨root, hbody, (h.proving p root hproving hroot).congr rfl rfl⟩
  | receive note hproving hpending =>
    exact ⟨h.reachable, by simp [hproving], by simp [hproving], by simp [hpending]⟩

theorem Live.start (rows : Js.Map String Server.StoredSignal) (secretKey : F)
    : (start d rows secretKey).Live d :=
  ⟨⟨[], rfl⟩, by simp [Session.start], by simp [Session.start], by simp [Session.start, Client.newNote]⟩

theorem Live.notWedged (h : w.Live d) : w.NotWedged tools := by
  intro hpending payload model reads nonce rerandomizer
  obtain ⟨p, hp⟩ := Option.ne_none_iff_exists'.mp hpending
  refine ⟨p.body, by simp [Client.proveRequest, hp], ?_⟩
  rcases h.pending p hp with hrecorded | ⟨root, hbody, hheld⟩
  . exact Or.inl hrecorded
  . exact Or.inr (hheld.known h.reachable hbody)

theorem live_run (rows : Js.Map String Server.StoredSignal) (secretKey : F) (commands : List Command)
    (htimely : ∀ before c, before ++ [c] <+: commands →
      (run d cfg tools rows secretKey before).Timely d cfg tools c)
    : (run d cfg tools rows secretKey commands).Live d := by
  induction commands using List.reverseRecOn with
  | nil => exact Live.start rows secretKey
  | append_singleton commands c ih =>
    rw [run_concat]
    have hbefore := ih fun before c' hbegins => htimely before c' (hbegins.trans (List.prefix_append _ _))
    exact hbefore.step (htimely commands c (List.prefix_refl _))

/-- In a run that pushes no full history of roots between the read of a root and the record of the
request over it, a pending request is one the server can still accept. -/
theorem run_notWedged (d : Deployment) (cfg : Server.Config) (tools : Tools)
    (rows : Js.Map String Server.StoredSignal) (secretKey : F) (commands : List Command)
    (htimely : ∀ before c, before ++ [c] <+: commands →
      (run d cfg tools rows secretKey before).Timely d cfg tools c)
    : (run d cfg tools rows secretKey commands).NotWedged tools :=
  (live_run rows secretKey commands htimely).notWedged

theorem step_system {c : Command} (hc : ∀ a, c ≠ .system a) : (w.step d cfg tools c).system = w.system := by
  cases c with
  | system a => exact absurd rfl (hc a)
  | request payload model =>
    show (w.request payload model).system = w.system
    unfold request
    split <;> rfl
  | readNote =>
    show (w.readNote tools).system = w.system
    unfold readNote
    split
    . simp only
      split <;> rfl
    . rfl
  | readPath =>
    show (w.readPath).system = w.system
    unfold readPath
    split
    . split <;> rfl
    . rfl
  | readRoot =>
    show (w.readRoot).system = w.system
    unfold readRoot
    split <;> rfl
  | readKey =>
    show (w.readKey).system = w.system
    unfold readKey
    split <;> rfl
  | prove nonce rerandomizer =>
    show (w.prove d tools nonce rerandomizer).system = w.system
    unfold prove
    split
    . split <;> rfl
    . rfl
  | receive response =>
    show (w.receive tools response).system = w.system
    unfold receive
    split <;> rfl
  | abort => rfl

theorem reachable_run (rows : Js.Map String Server.StoredSignal) (secretKey : F) (commands : List Command)
    : ∃ actions, (run d cfg tools rows secretKey commands).system.chain = Credits.run d actions := by
  induction commands using List.reverseRecOn with
  | nil => exact ⟨[], rfl⟩
  | append_singleton commands c ih =>
    rw [run_concat]
    by_cases hc : ∃ a, c = .system a
    . obtain ⟨a, rfl⟩ := hc
      exact State.reachable_step ih a
    . rw [step_system fun a ha => hc ⟨a, ha⟩]
      exact ih

/-- The commands of one request that nothing interrupts. -/
def requestCommands (payload : String) (model : Option String) (nonce rerandomizer : Nat) : List Command :=
  [.request payload model, .readNote, .readPath, .readRoot, .readKey, .prove nonce rerandomizer]

theorem foldl_requestCommands {payload : String} {model : Option String} {nonce rerandomizer : Nat}
    {path : List (Nat × Nat)} {body : RequestBody} {note' : NoteFile} (hproving : w.proving = none)
    (hpending : w.note.pending = none)
    (hactive : (w.committed.notes (Client.commitmentOf tools w.note)).status = .active)
    (hpath : Credits.getMerkleProof w.committed
      (w.committed.notes (Client.commitmentOf tools w.note)).leafIndex = .ok path)
    (hprove : Client.proveFresh tools w.note payload model
      ⟨w.committed.notes (Client.commitmentOf tools w.note), path, w.committed.merkleRoot, d.cMax,
        w.committed.serverPublicKey⟩ nonce rerandomizer = some (body, note'))
    : (requestCommands payload model nonce rerandomizer).foldl (step d cfg tools) w
      = { w with note := note', readAt := w.system.pushes } := by
  obtain ⟨system, note, proving, readAt⟩ := w
  simp only at hproving hpending
  subst hproving
  simp only [committed] at hactive hpath hprove
  simp only [requestCommands, List.foldl_cons, List.foldl_nil, step, request, hpending, readNote, committed,
    hactive, if_true, readPath, hpath, readRoot, readKey, prove, Client.proveRequest, hprove]

end Session

section Example

open Client (noteDeployment noteDeposit noteKey notePoseidon noteRoot noteTools)
open Session

def otherDeposit (i : Nat) : Credits.Action :=
  .call ⟨2009, 1000000000000000000, fun _ _ _ => false⟩ (.deposit (i + 3))

def otherDeposits (n : Nat) : List Credits.Action := (List.range n).map otherDeposit

theorem otherDeposits_succ (n : Nat) : otherDeposits (n + 1) = otherDeposits n ++ [otherDeposit n] := by
  simp [otherDeposits, List.range_succ]

theorem updateLeaf_go_one {P : Poseidon} (hP : ∀ a, P.hash2 1 a = 1 ∧ P.hash2 a 1 = 1) (zeros : Nat → Nat)
    (remaining level index : Nat) (treeNodes : Nat → Nat → Nat)
    : (Credits.updateLeaf.go P zeros remaining level index 1 treeNodes).2 = 1 := by
  induction remaining generalizing level index treeNodes with
  | zero => rfl
  | succ remaining ih =>
    have hcurrent (other : Nat) : (if index % 2 = 0 then P.hash2 1 other else P.hash2 other 1) = 1 := by
      split
      . exact (hP other).1
      . exact (hP other).2
    simp only [Credits.updateLeaf.go]
    rw [hcurrent]
    exact ih _ _ _

/-- The contract with `deposited` notes, none of them among the commitments from `next` on but for the
note of the example. -/
structure Depositing (next deposited : Nat) (s : Credits.State) : Prop where
  entered : s.entered = false
  paused : s.paused = false
  leaves : s.leaves.length = deposited
  free : ∀ c, next ≤ c → c ≠ Client.commitmentOf noteTools (Client.newNote 2) → (s.notes c).status = .none

theorem commitmentOf_two : Client.commitmentOf noteTools (Client.newNote 2)
    = 8645981980787649023086883978738420856660271013038108762834452721572614684349 := by
  show notePoseidon.hash1 ((2 : F)).val = _
  rw [show ((2 : F)).val = 2 from Client.secretKey_two]
  decide +kernel

theorem exec_deposit {env : Credits.Env} {c next deposited : Nat} {s : Credits.State}
    (h : Depositing next deposited s) (hvalue : env.value = 1000000000000000000) (hc : c < FIELD_MODULUS)
    (hnone : (s.notes c).status = .none) (hfull : deposited < 2 ^ Credits.TREE_DEPTH)
    : ∃ s', Credits.exec noteDeployment env (.deposit c) s = .ok (s', none)
        ∧ s'.entered = false ∧ s'.paused = false ∧ s'.leaves.length = deposited + 1
        ∧ s'.notes = Function.update s.notes c ⟨env.value, env.timestamp, s.leaves.length, .active⟩
        ∧ (notePoseidon.hash2 c 1000000000000000000 = 1 →
            pushedRoots s'.logs = 1 :: pushedRoots s.logs) := by
  obtain ⟨s', hdeposit, hs'⟩ : ∃ s', Credits.deposit noteDeployment env c s = .ok s' ∧ s' = _ :=
    ⟨_, Credits.deposit_eq_ok.mpr ⟨h.entered, h.paused, by rw [hvalue]; decide, by rw [hvalue]; decide, hc,
      hnone, by rw [h.leaves]; omega, rfl⟩, rfl⟩
  refine ⟨s', ?_, ?_, ?_, ?_, ?_, ?_⟩
  . simp only [Credits.exec, Credits.Call.payable, Credits.revertIf, hdeposit]
    rfl
  . rw [hs']
    rfl
  . rw [hs']
    exact h.paused
  . rw [hs']
    simp [Credits.leave, Credits.emit, Credits.updateLeaf, Credits.pushRoot, h.leaves]
  . rw [hs']
    rfl
  . intro hone
    have hleaf : (s.leaves ++ [notePoseidon.hash2 c env.value]).getD s.leaves.length 0 = 1 := by
      rw [List.getD_append_right _ _ _ _ (Nat.le_refl _), Nat.sub_self, List.getD_cons_zero, hvalue, hone]
    rw [hs']
    show (Credits.updateLeaf.go notePoseidon s.zeros Credits.TREE_DEPTH 0 s.leaves.length
      ((s.leaves ++ [notePoseidon.hash2 c env.value]).getD s.leaves.length 0) _).2
        :: pushedRoots s.logs = 1 :: pushedRoots s.logs
    rw [hleaf, updateLeaf_go_one Client.notePoseidon_one]

theorem hash2_otherDeposit {c : Nat} (hc : c < 1000000000) : notePoseidon.hash2 c 1000000000000000000 = 1 := by
  have htable : ∀ entry ∈ Credits.emptyTreeTable ++ Client.noteTable,
      entry.1.2 = 1000000000000000000 → 1000000000 ≤ entry.1.1 := by
    decide +kernel
  have hmodulus : 1000000000000000000 < FIELD_MODULUS := by decide
  apply Poseidon.ofTable_hash2_eq_one
  intro entry hentry heq
  rw [Nat.mod_eq_of_lt hmodulus, Nat.mod_eq_of_lt (by omega)] at heq
  have hle := htable entry hentry (by rw [heq])
  rw [heq] at hle
  exact absurd hc (Nat.not_lt.mpr hle)

/-- The contract after the note's deposit and `n` deposits of others. -/
structure OthersDeposited (n : Nat) (m : Credits.Machine) : Prop where
  stack : m.stack = []
  depositing : Depositing (n + 3) (n + 1) m.state
  active : (m.state.notes (Client.commitmentOf noteTools (Client.newNote 2))).status = .active
  roots : ∃ empty, pushedRoots m.state.logs = List.replicate n 1 ++ [noteRoot, empty]

theorem othersDeposited_zero : OthersDeposited 0 (Credits.run noteDeployment [noteDeposit]) := by
  obtain ⟨hstack, hentered, hpaused, hleaves, hnote, hroot, hlength⟩ := Client.noteDeposit_facts
  have hinit : Depositing 0 0 (Credits.constructor noteDeployment) := ⟨rfl, rfl, rfl, fun _ _ _ => rfl⟩
  have hnotes : ∀ c, c ≠ 8645981980787649023086883978738420856660271013038108762834452721572614684349 →
      ((Credits.run noteDeployment [noteDeposit]).state.notes c).status = .none := by
    intro c hc
    obtain ⟨s', hexec, -, -, -, hnotes, -⟩ := @exec_deposit
      (Credits.Caller.env ⟨2008, 1000000000000000000, fun _ _ _ => false⟩ noteDeployment.deployedAt)
      8645981980787649023086883978738420856660271013038108762834452721572614684349 0 0 _ hinit rfl
      (by decide +kernel) rfl (by decide)
    have hrun : (Credits.run noteDeployment [noteDeposit]).state = s' := by
      show ((Credits.deploy noteDeployment).step noteDeployment noteDeposit).state = s'
      simp only [Credits.Machine.step, noteDeposit, Credits.deploy, hexec]
    rw [hrun, hnotes, Function.update_of_ne hc]
    rfl
  have hlatest := (Credits.Machine.run_invariant (Credits.roots_invariant noteDeployment) [noteDeposit]).1.2
  obtain ⟨older, holder⟩ := hlatest.latest
  refine ⟨List.length_eq_zero_iff.mp hstack, ⟨hentered, hpaused, hleaves, ?_⟩, ?_, ?_⟩
  . intro c _ hc
    rw [commitmentOf_two] at hc
    exact hnotes c hc
  . rw [commitmentOf_two, hnote]
  . rw [holder, List.length_cons] at hlength
    obtain ⟨empty, rfl⟩ := List.length_eq_one_iff.mp (show older.length = 1 by omega)
    exact ⟨empty, by rw [holder, hroot]; rfl⟩

theorem OthersDeposited.step {n : Nat} {m : Credits.Machine} (h : OthersDeposited n m) (hn : n < 1000)
    : OthersDeposited (n + 1) (m.step noteDeployment (otherDeposit n)) := by
  have hne : n + 3 ≠ Client.commitmentOf noteTools (Client.newNote 2) := by
    rw [commitmentOf_two]
    omega
  have hmodulus : 1000000000 < FIELD_MODULUS := by decide
  obtain ⟨s', hexec, hentered, hpaused, hleaves, hnotes, hroots⟩ := @exec_deposit
    (Credits.Caller.env ⟨2009, 1000000000000000000, fun _ _ _ => false⟩ m.now) (n + 3) _ _ _ h.depositing rfl
    (by omega) (h.depositing.free (n + 3) (Nat.le_refl _) hne) (by simp only [Credits.TREE_DEPTH]; omega)
  have hstep : m.step noteDeployment (otherDeposit n) = { m with state := s' } := by
    simp only [Credits.Machine.step, otherDeposit, hexec]
  rw [hstep]
  refine ⟨h.stack, ⟨hentered, hpaused, hleaves, ?_⟩, ?_, ?_⟩
  . intro c hle hc
    rw [hnotes, Function.update_of_ne (by omega)]
    exact h.depositing.free c (by omega) hc
  . rw [hnotes, Function.update_of_ne hne.symm]
    exact h.active
  . obtain ⟨empty, hempty⟩ := h.roots
    refine ⟨empty, ?_⟩
    rw [hroots (hash2_otherDeposit (by omega)), hempty, List.replicate_succ, List.cons_append]

theorem othersDeposited (n : Nat) (hn : n ≤ 1000)
    : OthersDeposited n (Credits.run noteDeployment (noteDeposit :: otherDeposits n)) := by
  induction n with
  | zero => exact othersDeposited_zero
  | succ n ih =>
    rw [otherDeposits_succ, ← List.cons_append, Credits.run_concat]
    exact (ih (by omega)).step (by omega)

def noteConfig : Server.Config := { Server.exampleConfig with prod := true, poseidon := notePoseidon }

/-- The owner proves a request right after the deposit, and `n` others deposit before it is sent. -/
def delayedCommands (n : Nat) : List Command :=
  (.system (.chain noteDeposit) :: requestCommands "hi" none 7 5)
    ++ (otherDeposits n).map fun a => .system (.chain a)

theorem proveFresh_note
    : ∃ path body,
        Credits.getMerkleProof (Credits.run noteDeployment [noteDeposit]).state 0 = .ok path
          ∧ Client.proveFresh noteTools (Client.newNote 2) "hi" none
              ⟨⟨1000000000000000000, 1700000000, 0, .active⟩, path, noteRoot, noteDeployment.cMax, noteKey⟩ 7 5
            = some (body, { Client.newNote 2 with pending := some ⟨5, body⟩ })
          ∧ body.merkleRoot = toString noteRoot := by
  obtain ⟨-, -, -, hleaves, hnote, hroot, -⟩ := Client.noteDeposit_facts
  obtain ⟨htreeLeaves, htree⟩ := (Credits.Machine.run_invariantOn (Credits.Tree.invariantOn noteDeployment)
    [noteDeposit] fun _ _ => Credits.noZeroNode_of_hash2_ne_zero Client.notePoseidon_ne_zero _).1
  have hdeposited := (Credits.Machine.run_invariant (Credits.Deposited.invariant noteDeployment)
    [noteDeposit]).1
  obtain ⟨path, hpath, -⟩ := Circuit.climb_getMerkleProof htreeLeaves htree
    (show 0 < (Credits.run noteDeployment [noteDeposit]).state.leaves.length by rw [hleaves]; decide)
  have hprovable : Client.Provable noteTools (Client.newNote 2) noteKey :=
    ⟨by simp [Client.accumulatorInputs, Client.newNote], by simp [Client.accumulatorInputs, Client.newNote],
      Or.inr (by simp [Client.accumulatorInputs, Client.newNote])⟩
  rw [← commitmentOf_two] at hnote
  have hsolvent : ((Client.accumulatorInputs (Client.newNote 2)).index.val + 1) * noteDeployment.cMax
      ≤ 1000000000000000000 + (Client.accumulatorInputs (Client.newNote 2)).refunds.val := by
    simp only [Client.accumulatorInputs, Client.newNote, Int.cast_zero, ZMod.val_zero]
    decide
  obtain ⟨inputs, proof, body, -, -, rfl, hfresh⟩ := @Client.proveFresh_satisfied noteTools (Client.newNote 2)
    noteDeployment _ path noteKey rfl htreeLeaves htree hdeposited (by rw [hnote]) (by rw [hnote]; exact hpath)
    Client.onCurve_noteKey hprovable (by rw [hnote]; exact hsolvent) "hi" none 7 5
  rw [hnote, hroot] at hfresh
  exact ⟨path, _, hpath, hfresh, rfl⟩

theorem run_delayedCommands
    : ∃ pending, pending.body.merkleRoot = toString noteRoot
        ∧ ∀ n, run noteDeployment noteConfig noteTools [] 2 (delayedCommands n)
          = ⟨⟨Credits.run noteDeployment (noteDeposit :: otherDeposits n), Server.init []⟩,
              { Client.newNote 2 with pending := some pending }, none, 2⟩ := by
  obtain ⟨path, body, hpath, hprove, hroot⟩ := proveFresh_note
  obtain ⟨hstack, -, -, -, hnote, hmerkleRoot, hpushes⟩ := Client.noteDeposit_facts
  refine ⟨⟨5, body⟩, hroot, ?_⟩
  intro n
  have hcommitted : (Credits.run noteDeployment [noteDeposit]).committed
      = (Credits.run noteDeployment [noteDeposit]).state := by
    unfold Credits.Machine.committed
    rw [List.length_eq_zero_iff.mp hstack]
    rfl
  have hkey : (Credits.run noteDeployment [noteDeposit]).state.serverPublicKey = noteKey := by decide +kernel
  have hproved : run noteDeployment noteConfig noteTools [] 2
      (.system (.chain noteDeposit) :: requestCommands "hi" none 7 5)
      = ⟨⟨Credits.run noteDeployment [noteDeposit], Server.init []⟩,
          { Client.newNote 2 with pending := some ⟨5, body⟩ }, none, 2⟩ := by
    have hfold := @foldl_requestCommands noteDeployment noteConfig noteTools
      ⟨⟨Credits.run noteDeployment [noteDeposit], Server.init []⟩, Client.newNote 2, none, 0⟩
      "hi" none 7 5 path body { Client.newNote 2 with pending := some ⟨5, body⟩ } rfl rfl
    simp only [committed, hcommitted, commitmentOf_two, hnote, hmerkleRoot, hkey] at hfold
    have hdone := hfold trivial hpath hprove
    rw [State.pushes, hcommitted, hpushes] at hdone
    exact hdone
  unfold delayedCommands
  induction n with
  | zero =>
    rw [show otherDeposits 0 = [] from rfl, List.map_nil, List.append_nil]
    exact hproved
  | succ n ih =>
    rw [otherDeposits_succ, List.map_append, List.map_singleton, ← List.append_assoc, run_concat, ih,
      ← List.cons_append, Credits.run_concat]
    rfl

/-- Thirty deposits of others later the note is still active, and `proveRequest` keeps to a body whose
root the contract has forgotten and whose nullifier nobody has recorded. -/
theorem pending_root_forgotten
    : ((run noteDeployment noteConfig noteTools [] 2 (delayedCommands 30)).committed.notes
          (Client.commitmentOf noteTools (Client.newNote 2))).status = .active
        ∧ ¬ (run noteDeployment noteConfig noteTools [] 2 (delayedCommands 30)).NotWedged noteTools := by
  obtain ⟨pending, hroot, hrun⟩ := run_delayedCommands
  have hothers := othersDeposited 30 (by decide)
  have hcommitted : (Credits.run noteDeployment (noteDeposit :: otherDeposits 30)).committed
      = (Credits.run noteDeployment (noteDeposit :: otherDeposits 30)).state := by
    unfold Credits.Machine.committed
    rw [hothers.stack]
    rfl
  rw [hrun]
  refine ⟨by rw [committed, hcommitted]; exact hothers.active, ?_⟩
  intro hnot
  obtain ⟨body, hbody, hrecorded | hknown⟩ := hnot (by simp) "" none
    ⟨⟨0, 0, 0, .none⟩, [], 0, 0, noteKey⟩ 0 0
  . obtain ⟨key, -, hrow⟩ := hrecorded
    exact hrow rfl
  . obtain ⟨rfl, -⟩ := Prod.mk.inj (Option.some.inj hbody)
    have hread : Js.BigInt (toString noteRoot) = some (noteRoot : Int) := Js.BigInt_repr noteRoot
    unfold State.Known Server.knownRoot at hknown
    rw [hroot, hread] at hknown
    simp only [hcommitted] at hknown
    split at hknown
    next =>
      rw [Option.some.injEq, Int.toNat_natCast] at hknown
      have hhistory := (Credits.Machine.run_invariant (Credits.roots_invariant noteDeployment)
        (noteDeposit :: otherDeposits 30)).1.1
      have hmem := hhistory.isKnownRoot_eq_true hknown
      obtain ⟨empty, hroots⟩ := hothers.roots
      rw [hroots, List.take_append_of_le_length (by simp [ROOT_HISTORY_SIZE])] at hmem
      have hone := List.eq_of_mem_replicate (List.mem_of_mem_take hmem)
      exact absurd hone (by decide)
    next => simp at hknown

theorem delayedCommands_succ (n : Nat)
    : delayedCommands (n + 1) = delayedCommands n ++ [.system (.chain (otherDeposit n))] := by
  simp [delayedCommands, otherDeposits_succ]

theorem pushes_delayedCommands {n : Nat} (hn : n ≤ 1000)
    : (run noteDeployment noteConfig noteTools [] 2 (delayedCommands n)).system.pushes = n + 2 := by
  obtain ⟨pending, -, hrun⟩ := run_delayedCommands
  have hothers := othersDeposited n hn
  obtain ⟨empty, hroots⟩ := hothers.roots
  rw [hrun, State.pushes, Credits.Machine.committed, hothers.stack]
  simp [hroots]

/-- A proper prefix of the commands ends in the deposit, in a step of the request or in the deposit of
somebody else. -/
theorem delayedCommands_cases {n : Nat} {before : List Command} {c : Command}
    (h : before ++ [c] <+: delayedCommands n)
    : (before = [] ∧ c = .system (.chain noteDeposit)) ∨ (∀ a, c ≠ .system a)
      ∨ ∃ j, j < n ∧ before = delayedCommands j ∧ c = .system (.chain (otherDeposit j)) := by
  induction n with
  | zero =>
    have hdeposit : delayedCommands 0 = .system (.chain noteDeposit) :: requestCommands "hi" none 7 5 := by
      simp [delayedCommands, otherDeposits]
    cases before with
    | nil =>
      rw [hdeposit, List.nil_append, List.cons_prefix_cons] at h
      exact Or.inl ⟨rfl, h.1⟩
    | cons b before =>
      rw [hdeposit, List.cons_append, List.cons_prefix_cons] at h
      have hmem : c ∈ requestCommands "hi" none 7 5 := h.2.subset (by simp)
      refine Or.inr (Or.inl ?_)
      rintro a rfl
      simp [requestCommands] at hmem
  | succ n ih =>
    rw [delayedCommands_succ, List.prefix_concat_iff] at h
    rcases h with heq | hbegins
    . obtain ⟨rfl, hc⟩ := List.append_inj' heq rfl
      exact Or.inr (Or.inr ⟨n, Nat.lt_succ_self n, rfl, List.singleton_inj.mp hc⟩)
    . rcases ih hbegins with hfirst | hown | ⟨j, hj, hbefore⟩
      . exact Or.inl hfirst
      . exact Or.inr (Or.inl hown)
      . exact Or.inr (Or.inr ⟨j, Nat.lt_succ_of_lt hj, hbefore⟩)

/-- Before 29 deposits of others the root is never a full history behind. -/
theorem timely_delayedCommands {before : List Command} {c : Command}
    (h : before ++ [c] <+: delayedCommands 29)
    : (run noteDeployment noteConfig noteTools [] 2 before).Timely noteDeployment noteConfig noteTools c := by
  have hnonzero : (run noteDeployment noteConfig noteTools [] 2 before).committed.merkleRoot ≠ 0 := by
    obtain ⟨actions, hchain⟩ := @reachable_run noteDeployment noteConfig noteTools [] 2 before
    obtain ⟨a, b, hhash⟩ := (Credits.Machine.run_invariant_committed
      (Credits.roots_invariant noteDeployment) actions).2.hash
    rw [committed, hchain, hhash]
    exact Client.notePoseidon_ne_zero a b
  rcases delayedCommands_cases h with ⟨rfl, rfl⟩ | hown | ⟨j, hj, rfl, rfl⟩
  . refine ⟨?_, fun _ => hnonzero⟩
    rintro (⟨p, hp, -⟩ | ⟨pending, hp, -⟩) <;> cases hp
  . refine ⟨?_, fun _ => hnonzero⟩
    intro _ hpushed
    rw [step_system hown] at hpushed
    exact absurd rfl hpushed
  . refine ⟨?_, fun _ => hnonzero⟩
    intro _ _
    obtain ⟨pending, -, hrun⟩ := run_delayedCommands
    have hpushes := @pushes_delayedCommands (j + 1) (by omega)
    rw [delayedCommands_succ, run_concat] at hpushes
    rw [hpushes, hrun]
    show j + 1 + 2 < 2 + 30
    omega

/-- After 29 deposits of others the request is still one to send. -/
theorem run_notWedged_delayed
    : (run noteDeployment noteConfig noteTools [] 2 (delayedCommands 29)).note.pending ≠ none
        ∧ (run noteDeployment noteConfig noteTools [] 2 (delayedCommands 29)).NotWedged noteTools := by
  obtain ⟨pending, -, hrun⟩ := run_delayedCommands
  refine ⟨by simp [hrun], ?_⟩
  exact run_notWedged noteDeployment noteConfig noteTools [] 2 (delayedCommands 29)
    fun before c h => timely_delayedCommands h

end Example

end System
end Longjing
