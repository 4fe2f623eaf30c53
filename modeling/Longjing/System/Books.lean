import Longjing.Client.Failure
import Longjing.Client.Sound
import Longjing.System.Pending

/-!
The books of an honest owner next to the contract: what the note's file says about the note's deposit, in
any run in which the responses come from a server.
-/

namespace Longjing
namespace System

open Accumulator
open Client (NoteFile Pending RefundKey RequestResponse Tools usedIndices)
open Credits (Deployment EdDSAPublicKey refundKeyId)

/-- The body that a server with the contract's C_MAX ended a request with, whatever its key and its run. -/
def Answered (d : Deployment) (response : RequestResponse) : Prop :=
  ∃ (cfg : Server.Config) (rows : Js.Map String Server.StoredSignal) (actions : List Server.Action),
    (∀ i c, Server.Action.resume i (.matched (some c)) ∈ actions → c = d.cMax)
      ∧ ∃ exec ∈ ((Server.init rows).run cfg actions).execs, ∃ outcome,
        exec.pc = .done outcome ∧ response = .ofJson outcome.body

/-- A response that can be folded carries a refund of C_MAX at most. -/
theorem Answered.refund_le {d : Deployment} {response : RequestResponse} {refund : Int}
    (h : Answered d response) (hrefund : response.refund = some refund) : 0 ≤ refund ∧ refund ≤ d.cMax := by
  obtain ⟨cfg, rows, actions, hcMax, exec, hexec, outcome, hdone, rfl⟩ := h
  cases outcome with
  | error exception =>
    have hfield : (Server.Outcome.body (.error exception)).field "refund" = none :=
      Server.teeExceptionFilter_field exception (by decide) (by decide)
    simp [RequestResponse.ofJson, hfield] at hrefund
  | ok answer =>
    have hissued := @Server.State.issued_run cfg d.cMax rows actions hcMax
    obtain ⟨published, v, hv, hcarries⟩ := hissued.kept.execs exec hexec (.response answer) hdone
    have hfield : (Server.Outcome.body (.ok answer)).field "refund" = some (.string answer.refund) := by
      simp [Server.Outcome.body, Server.LongjingResponseDto.json, Server.Json.field, Js.Map.get_cons]
    have hread : Js.BigInt (toString v) = some (v : Int) := Js.BigInt_repr v
    simp only [RequestResponse.ofJson, hfield, Option.bind_some, Server.Json.toBigInt] at hrefund
    rw [hcarries.1, hread, Option.some.injEq] at hrefund
    omega

variable (d : Deployment) (cfg : Server.Config) (tools : Tools)

/-- Every response comes from a server, and every key that is registered along the way is in `K`. -/
structure HonestRun (K : EdDSAPublicKey → Prop) (rows : Js.Map String Server.StoredSignal) (secretKey : F)
    (commands : List Command) : Prop where
  answered : ∀ response, Command.receive response ∈ commands → Answered d response
  registered : ∀ before, before <+: commands →
    K (Session.run d cfg tools rows secretKey before).committed.serverPublicKey

def Session.onchain (w : Session) : Credits.Note := w.committed.notes (Client.commitmentOf tools w.note)

structure Session.Books (K : EdDSAPublicKey → Prop) (w : Session) : Prop where
  reachable : ∃ actions, w.system.chain = Credits.run d actions
  alone : w.proving ≠ none → w.note.pending = none
  sound : w.note.Sound tools
  signedBy : ∀ key, w.note.signedBy = some key →
    K key ∧ w.committed.acceptedRefundKeys (refundKeyId d key) = true
  refunds_le : w.note.opening.refunds ≤ w.note.opening.index * d.cMax
  used_le : usedIndices w.note ≤ 2 ^ 32
  funded : 0 < usedIndices w.note → (w.onchain tools).status ≠ .none
    ∧ usedIndices w.note * d.cMax ≤ (w.onchain tools).amount + w.note.opening.refunds
  read : ∀ p onchain, w.proving = some p → p.note = some onchain →
    (w.onchain tools).status ≠ .none ∧ onchain.amount = (w.onchain tools).amount

variable {d cfg tools}

theorem HonestRun.earlier {K : EdDSAPublicKey → Prop} {rows : Js.Map String Server.StoredSignal}
    {secretKey : F} {before commands : List Command}
    (h : HonestRun d cfg tools K rows secretKey commands) (hbefore : before <+: commands)
    : HonestRun d cfg tools K rows secretKey before :=
  ⟨fun response hmem => h.answered response (hbefore.subset hmem),
    fun earlier hearlier => h.registered earlier (hearlier.trans hbefore)⟩

/-- What a step of the contract or of the server keeps: the notes but for their status, and the keys. -/
theorem State.step_later {s : State} (h : ∃ actions, s.chain = Credits.run d actions) (a : Action)
    : (∀ c, (s.chain.committed.notes c).Later ((s.step d cfg a).chain.committed.notes c))
      ∧ ∀ key, s.chain.committed.acceptedRefundKeys key = true →
        (s.step d cfg a).chain.committed.acceptedRefundKeys key = true := by
  obtain ⟨actions, hrun⟩ := h
  cases a with
  | chain a =>
    have hstep := @Credits.Machine.run_committed_step d _
      (fun s s' => (∀ c, (s.notes c).Later (s'.notes c))
        ∧ ∀ key, s.acceptedRefundKeys key = true → s'.acceptedRefundKeys key = true)
      (Credits.Accounting.invariant d) (fun s => ⟨fun c => .refl _, fun _ hkey => hkey⟩)
      (fun hst htu => ⟨fun c => (hst.1 c).trans (htu.1 c), fun key hkey => htu.2 key (hst.2 key hkey)⟩)
      (fun _ heffect => ⟨fun c => heffect.later c, fun _ hkey => heffect.accepted hkey⟩) actions a
    rw [Credits.run_concat, ← hrun] at hstep
    exact hstep
  | server a =>
    rcases s.step_server a with hstay | ⟨a', -, hstep⟩
    . rw [hstay]
      exact ⟨fun c => .refl _, fun _ hkey => hkey⟩
    . rw [hstep]
      exact ⟨fun c => .refl _, fun _ hkey => hkey⟩

namespace Session

variable {w : Session} {K : EdDSAPublicKey → Prop}

variable (d cfg tools) in
/-- What a command does to the file and to the note that was read for it. -/
inductive Move (w : Session) : Command → Session → Prop where
  | stay (c : Command) : Move w c w
  | system (a : Action) : Move w (.system a) { w with system := w.system.step d cfg a }
  | drop (c : Command) : Move w c { w with proving := none }
  | request (payload : String) (model : Option String)
    : w.note.pending = none →
      Move w (.request payload model) { w with proving := some ⟨payload, model, none, none, none, none⟩ }
  | readNote (p : Proving)
    : w.proving ≠ none → (w.onchain tools).status = .active → p.note = some (w.onchain tools) →
      Move w .readNote { w with proving := some p }
  -- the path, the root or the key
  | read (c : Command) (p q : Proving) (readAt : Nat)
    : w.proving = some q → p.note = q.note → Move w c { w with proving := some p, readAt := readAt }
  | prove (nonce rerandomizer : Nat) (p : Proving) (onchain : Credits.Note) (path : List (Nat × Nat))
      (root : Nat) (key : EdDSAPublicKey) (body : Server.RequestBody) (note : NoteFile)
    : w.proving = some p → p.note = some onchain →
      Client.proveRequest tools w.note p.payload p.model ⟨onchain, path, root, d.cMax, key⟩ nonce rerandomizer
        = some (body, note) →
      Move w (.prove nonce rerandomizer) { w with note := note, proving := none }
  | receive (response : RequestResponse) (note : NoteFile)
    : w.proving = none →
      Client.receive tools w.note response w.committed.serverPublicKey = some note →
      Move w (.receive response) { w with note := note }

theorem move_sound (c : Command) : w.Move d cfg tools c (w.step d cfg tools c) := by
  cases c with
  | system a => exact .system a
  | request payload model =>
    simp only [step, request]
    split
    next _ hpending => exact .request payload model hpending
    next => exact .stay _
  | readNote =>
    simp only [step, readNote]
    split
    next payload model path root key hproving =>
      split
      next hactive => exact .readNote _ (by simp [hproving]) hactive rfl
      next => exact .drop _
    next => exact .stay _
  | readPath =>
    simp only [step, readPath]
    split
    next payload model note root key hproving =>
      split
      . exact .read _ _ _ w.readAt hproving rfl
      . exact .drop _
    next => exact .stay _
  | readRoot =>
    simp only [step, readRoot]
    split
    next payload model note path key hproving => exact .read _ _ _ _ hproving rfl
    next => exact .stay _
  | readKey =>
    simp only [step, readKey]
    split
    next payload model note path root hproving => exact .read _ _ _ w.readAt hproving rfl
    next => exact .stay _
  | prove nonce rerandomizer =>
    simp only [step, prove]
    split
    next payload model note path root key hproving =>
      split
      next body note' hprove => exact .prove nonce rerandomizer _ note path root key body note' hproving rfl hprove
      next => exact .drop _
    next => exact .stay _
  | receive response =>
    simp only [step, receive]
    split
    next note hproving hreceive => exact .receive response note hproving hreceive
    next => exact .stay _
  | abort => exact .drop _

theorem Books.start (rows : Js.Map String Server.StoredSignal) (secretKey : F)
    : (start d rows secretKey).Books d tools K where
  reachable := ⟨[], rfl⟩
  alone h := absurd rfl h
  sound := .new tools secretKey
  signedBy key h := by simp [Session.start, Client.newNote] at h
  refunds_le := by simp [Session.start, Client.newNote]
  used_le := by simp [Session.start, Client.newNote, usedIndices]
  funded h := by simp [Session.start, Client.newNote, usedIndices] at h
  read p onchain h := by simp [Session.start] at h

theorem Books.system (h : w.Books d tools K) (a : Action)
    : Books d tools K { w with system := w.system.step d cfg a } := by
  obtain ⟨hnotes, hkeys⟩ := @State.step_later d cfg w.system h.reachable a
  have hlater := hnotes (Client.commitmentOf tools w.note)
  -- a note that exists keeps its amount
  have hkept (hne : (w.onchain tools).status ≠ .none)
      : (onchain tools { w with system := w.system.step d cfg a }).status ≠ .none
        ∧ (onchain tools { w with system := w.system.step d cfg a }).amount = (w.onchain tools).amount := by
    refine ⟨fun hnone => hne (hlater.none hnone), ?_⟩
    unfold onchain committed
    rw [hlater.kept hne]
  refine ⟨State.reachable_step h.reachable a, h.alone, h.sound, ?_, h.refunds_le, h.used_le, ?_, ?_⟩
  . intro key hkey
    obtain ⟨hK, haccepted⟩ := h.signedBy key hkey
    exact ⟨hK, hkeys _ haccepted⟩
  . intro hused
    obtain ⟨hne, hcovers⟩ := h.funded hused
    obtain ⟨hne', hamount⟩ := hkept hne
    exact ⟨hne', by rw [hamount]; exact hcovers⟩
  . intro p onchain hproving hread
    obtain ⟨hne, hamount⟩ := h.read p onchain hproving hread
    obtain ⟨hne', hamount'⟩ := hkept hne
    exact ⟨hne', hamount.trans hamount'.symm⟩

/-- The bounds that the contract checks of every deposit. -/
theorem Books.deposit_lt (h : w.Books d tools K) (hne : (w.onchain tools).status ≠ .none)
    : d.cMax ≤ (w.onchain tools).amount ∧ (w.onchain tools).amount < 2 ^ 128 := by
  obtain ⟨actions, hrun⟩ := h.reachable
  have hdeposited := Credits.Machine.run_invariant_committed (Credits.Deposited.invariant d) actions
  rw [← hrun] at hdeposited
  exact (hdeposited _ hne).2

theorem Books.opening_lt (h : w.Books d tools K) (hne : (w.onchain tools).status ≠ .none)
    : w.note.opening.refunds < FIELD_MODULUS ∧ w.note.opening.index < FIELD_MODULUS := by
  obtain ⟨hmin, hmax⟩ := h.deposit_lt hne
  have hindex : w.note.opening.index ≤ 2 ^ 32 :=
    Int.le_trans (Client.index_le_usedIndices w.note) h.used_le
  have hrefunds : w.note.opening.refunds ≤ 2 ^ 32 * 2 ^ 128 := by
    refine Int.le_trans h.refunds_le (Int.mul_le_mul hindex (by omega) (by omega) (by decide))
  have hmodulus : 2 ^ 32 * 2 ^ 128 < FIELD_MODULUS := by decide
  omega

/-- A request that was proved is covered: by the deposit, and in the range of the index. -/
theorem Books.prove (h : w.Books d tools K) {p : Proving} {onchain : Credits.Note} {path : List (Nat × Nat)}
    {root nonce rerandomizer : Nat} {key : EdDSAPublicKey} {body : Server.RequestBody} {note : NoteFile}
    (hproving : w.proving = some p) (hread : p.note = some onchain)
    (hprove : Client.proveRequest tools w.note p.payload p.model ⟨onchain, path, root, d.cMax, key⟩ nonce
      rerandomizer = some (body, note))
    : Books d tools K { w with note := note, proving := none } := by
  have hpending := h.alone (by simp [hproving])
  obtain ⟨hne, hamount⟩ := h.read p onchain hproving hread
  obtain ⟨hmin, hmax⟩ := h.deposit_lt hne
  obtain ⟨hrefunds_lt, hindex_lt⟩ := h.opening_lt hne
  obtain ⟨hrefunds, hindex, -⟩ := h.sound.signals hrefunds_lt hindex_lt
  unfold Client.proveRequest at hprove
  rw [hpending] at hprove
  obtain ⟨-, inputs, proof, o, hinputs, hfull, rfl, rfl⟩ := Client.proveFresh_eq_some.mp hprove
  obtain ⟨hfacts, -⟩ := Circuit.requestFacts_of (tools.request_sound hfull)
  unfold Client.requestInputs at hinputs
  split at hinputs
  next =>
    obtain rfl := Option.some.inj hinputs
    have hsolvent := hfacts.solvent
    have hlt := hfacts.index_lt
    have hmodulus : 2 ^ 128 < FIELD_MODULUS := by decide
    simp only [hamount] at hsolvent
    rw [hindex, hrefunds, F.val_cast_of_lt (by omega), F.val_cast_of_lt (by omega)] at hsolvent
    rw [hindex] at hlt
    have hnonneg := h.sound.index
    have hpos := h.sound.refunds
    refine ⟨h.reachable, by simp, h.sound.withPending _, h.signedBy, h.refunds_le, ?_, ?_, by simp⟩
    . rw [Client.usedIndices_pending rfl]
      simp only
      omega
    . intro _
      refine ⟨hne, ?_⟩
      rw [Client.usedIndices_pending rfl]
      have hcast : ((((w.note.opening.index.toNat + 1) * d.cMax : Nat)) : Int)
          ≤ ((w.onchain tools).amount + w.note.opening.refunds.toNat : Nat) := Int.ofNat_le.mpr hsolvent
      push_cast at hcast
      rw [Int.toNat_of_nonneg hnonneg, Int.toNat_of_nonneg hpos] at hcast
      exact hcast
  next => simp at hinputs

/-- A refund that is folded covers the index that was used for it. -/
theorem Books.receive (h : w.Books d tools K) {response : RequestResponse} {note : NoteFile}
    (hproving : w.proving = none) (hK : K w.committed.serverPublicKey) (hanswered : Answered d response)
    (hreceive : Client.receive tools w.note response w.committed.serverPublicKey = some note)
    : Books d tools K { w with note := note } := by
  obtain ⟨actions, hrun⟩ := h.reachable
  have haccepted : w.committed.acceptedRefundKeys (refundKeyId d w.committed.serverPublicKey) = true := by
    have htimelock := Credits.Machine.run_invariant_committed (Credits.Timelock.invariant d) actions
    rw [← hrun] at htimelock
    exact htimelock.accepted
  have hsound := h.sound.receive hreceive fun refund hrefund => (hanswered.refund_le hrefund).1
  obtain ⟨pending, refund, signature, hpending, hrefund, -, -, -, -, -, -, rfl⟩ :=
    Client.receive_eq_some.mp hreceive
  obtain ⟨hnonneg, hle⟩ := hanswered.refund_le hrefund
  have hused : usedIndices (Client.foldResponse w.note w.committed.serverPublicKey pending.rerandomizer refund
      signature) = usedIndices w.note := by
    rw [Client.usedIndices_pending hpending, Client.usedIndices_free rfl]
    rfl
  refine ⟨⟨actions, hrun⟩, fun hne => absurd hproving hne, hsound, ?_, ?_, ?_, ?_, ?_⟩
  . intro key hkey
    obtain rfl := Option.some.inj hkey
    exact ⟨hK, haccepted⟩
  . have hbefore := h.refunds_le
    show w.note.opening.refunds + refund ≤ (w.note.opening.index + 1) * d.cMax
    rw [Int.add_mul, Int.one_mul]
    omega
  . rw [hused]
    exact h.used_le
  . rw [hused]
    intro hpos
    obtain ⟨hne, hcovers⟩ := h.funded hpos
    refine ⟨hne, Int.le_trans hcovers ?_⟩
    show _ ≤ ((w.onchain tools).amount : Int) + (w.note.opening.refunds + refund)
    omega
  . intro p onchain hsome
    simp [hproving] at hsome

theorem Books.step (h : w.Books d tools K) {c : Command} (hK : K w.committed.serverPublicKey)
    (hanswered : ∀ response, c = .receive response → Answered d response)
    : (w.step d cfg tools c).Books d tools K := by
  have hmove := @move_sound d cfg tools w c
  generalize w.step d cfg tools c = w' at hmove
  cases hmove with
  | stay => exact h
  | system a => exact h.system a
  | drop => exact ⟨h.reachable, by simp, h.sound, h.signedBy, h.refunds_le, h.used_le, h.funded, by simp⟩
  | request payload model hpending =>
    refine ⟨h.reachable, fun _ => hpending, h.sound, h.signedBy, h.refunds_le, h.used_le, h.funded, ?_⟩
    rintro p onchain ⟨rfl⟩ hread
    simp at hread
  | readNote p hproving hactive hnote =>
    have hpending := h.alone hproving
    refine ⟨h.reachable, fun _ => hpending, h.sound, h.signedBy, h.refunds_le, h.used_le, h.funded, ?_⟩
    rintro p' onchain ⟨rfl⟩ hread
    obtain rfl := Option.some.inj (hnote.symm.trans hread)
    exact ⟨by rw [onchain, committed] at hactive ⊢; simp [hactive], rfl⟩
  | read c p q readAt hproving hnote =>
    have hpending := h.alone (by simp [hproving])
    refine ⟨h.reachable, fun _ => hpending, h.sound, h.signedBy, h.refunds_le, h.used_le, h.funded, ?_⟩
    rintro p' onchain ⟨rfl⟩ hread
    exact h.read q onchain hproving (hnote.symm.trans hread)
  | prove nonce rerandomizer p onchain path root key body note hproving hread hprove =>
    exact h.prove hproving hread hprove
  | receive response note hproving hreceive =>
    exact h.receive hproving hK (hanswered response rfl) hreceive

theorem books_run {rows : Js.Map String Server.StoredSignal} {secretKey : F} {commands : List Command}
    (hrun : HonestRun d cfg tools K rows secretKey commands)
    : (run d cfg tools rows secretKey commands).Books d tools K := by
  induction commands using List.reverseRecOn with
  | nil => exact Books.start rows secretKey
  | append_singleton commands c ih =>
    rw [run_concat]
    have hbefore := ih (hrun.earlier (List.prefix_append _ _))
    apply hbefore.step (hrun.registered commands (List.prefix_append _ _))
    rintro response rfl
    exact hrun.answered response (by simp)

end Session

end System
end Longjing
