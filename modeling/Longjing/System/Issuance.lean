import Longjing.Accumulator.Homomorphism
import Longjing.Circuit.Request
import Longjing.Server.Lemmas.Issued
import Longjing.System.Pending

/-!
What the signed accumulators open to. The server sees no opening: it is the witness behind a verified
proof that has one, and the server's step on the accumulator is a step on that opening.
-/

namespace Longjing

namespace Accumulator

/-- The blinding only counts modulo the order of the subgroup. -/
structure Opening.Agrees (o o' : Opening) : Prop where
  refunds : o.refunds = o'.refunds
  index : o.index = o'.index
  commitment : o.commitment = o'.commitment

end Accumulator

namespace Circuit

open Accumulator

def AccumulatorSignals.opening (a : AccumulatorSignals) (commitment : F) : Opening where
  refunds := a.refunds.val
  index := a.index.val
  commitment := commitment.val
  blinding := a.blinding.val

theorem AccumulatorSignals.commit_opening (a : AccumulatorSignals) (commitment : F)
    : commit (a.opening commitment) = coords (a.point commitment) := by
  rw [commit_eq]
  rfl

theorem messageOf_coords (P : Poseidon) (A : Jubjub)
    : P.sig2 ((coords A).1 : F) ((coords A).2 : F) = messageOf P A := by
  have hcoords := toF_coords A
  unfold toF at hcoords
  unfold messageOf
  rw [← hcoords]

/-- What the answer to a request opens to, with a refund. -/
def RequestInputs.successor (P : Poseidon) {depth : Nat} (i : RequestInputs depth) (refund : Nat) : Opening where
  refunds := i.accumulator.refunds.val + refund
  index := i.accumulator.index.val + 1
  commitment := (P.sig1 i.secretKey).val
  blinding := i.accumulator.blinding.val + i.rerandomizer.val

theorem applyRefund_outputs (P : Poseidon) {depth : Nat} (i : RequestInputs depth) (refund : Nat)
    : applyRefund (((i.outputs P).accumulator.1.val : Int), ((i.outputs P).accumulator.2.val : Int)) refund
      = commit (i.successor P refund) := by
  have hpublished : (((i.outputs P).accumulator.1.val : Int), ((i.outputs P).accumulator.2.val : Int))
      = rerandomize (commit (i.accumulator.opening (P.sig1 i.secretKey))) i.rerandomizer.val := by
    rw [AccumulatorSignals.commit_opening, rerandomize_coords, Int.toNat_natCast]
    rfl
  rw [hpublished]
  exact applyRefund_rerandomize_commit (Int.natCast_nonneg _) (Int.natCast_nonneg _) (Int.natCast_nonneg _)
    (Int.natCast_nonneg _) (Int.natCast_nonneg _)

end Circuit

namespace System

open Accumulator
open Circuit (AccumulatorSignals Circomlib RequestInputs SettlementInputs SettlementOutputs messageOf)
open Credits (Deployment TREE_DEPTH)
open Server (Event LongjingRequestDto parseFieldElement toBigInt)

def serverPublicKey (cfg : Server.Config) : F × F := ((cfg.serverKey.1 : F), (cfg.serverKey.2 : F))

variable (cfg : Server.Config) (lib : Circomlib) (cMax : Nat)
  (witness : LongjingRequestDto → RequestInputs TREE_DEPTH)

/-- The witness of a request whose proof verified. -/
structure Satisfies (req : LongjingRequestDto) (i : RequestInputs TREE_DEPTH) : Prop where
  request : Circuit.Request cfg.poseidon lib i (i.outputs cfg.poseidon)
  signals : Server.publicSignals cfg req cMax
    = some ((i.publicSignals (i.outputs cfg.poseidon)).map Int.ofNat)

/-- Who shows an accumulator next to these events forged no signature of the server on it, and found no
collision of its message and no other opening of a signed accumulator. -/
structure Genuine (log : List Event) (a : AccumulatorSignals) (commitment : F) : Prop where
  unforgeable : a.isGenesis = 0 →
    lib.verifyPoseidon (messageOf cfg.poseidon (a.point commitment)) (a.signatureR8x, a.signatureR8y)
      a.signatureS (serverPublicKey cfg) = true →
    ∃ req b refund, .signed req b refund ∈ log
      ∧ cfg.poseidon.sig2 (b.1 : F) (b.2 : F) = messageOf cfg.poseidon (a.point commitment)
  collisionFree : ∀ req b refund, .signed req b refund ∈ log →
    cfg.poseidon.sig2 (b.1 : F) (b.2 : F) = messageOf cfg.poseidon (a.point commitment) →
    b = coords (a.point commitment)
  binding : ∀ req b refund, .signed req b refund ∈ log →
    commit (a.opening commitment) = commit ((witness req).successor cfg.poseidon refund) →
    (a.opening commitment).Agrees ((witness req).successor cfg.poseidon refund)

/-- Behind every proof that verified is a witness that was made without breaking any of the primitives. -/
def Idealized (log : List Event) : Prop :=
  Log.Justified (fun before e => ∀ req, e = .accepted req →
    Satisfies cfg lib cMax req (witness req)
      ∧ Genuine cfg lib witness before (witness req).accumulator
        (cfg.poseidon.sig1 (witness req).secretKey)) log

/-- What an event says about the openings. -/
def Accounted : Event → Prop
  | .accepted req => Satisfies cfg lib cMax req (witness req)
      ∧ (witness req).accumulator.refunds.val ≤ (witness req).accumulator.index.val * cMax
  | .provider req => Satisfies cfg lib cMax req (witness req)
      ∧ (witness req).accumulator.refunds.val ≤ (witness req).accumulator.index.val * cMax
  | .signed req a refund => a = commit ((witness req).successor cfg.poseidon refund)
      ∧ ((witness req).successor cfg.poseidon refund).refunds
        ≤ ((witness req).successor cfg.poseidon refund).index * cMax
  | _ => True

variable {cfg lib cMax witness}

theorem Satisfies.reads {req : LongjingRequestDto} {i : RequestInputs TREE_DEPTH}
    (h : Satisfies cfg lib cMax req i)
    : toBigInt req.nullifier = some ((i.outputs cfg.poseidon).nullifier.val : Int)
      ∧ toBigInt req.signal.y = some ((i.outputs cfg.poseidon).signalY.val : Int)
      ∧ toBigInt req.accumulator.x = some ((i.outputs cfg.poseidon).accumulator.1.val : Int)
      ∧ toBigInt req.accumulator.y = some ((i.outputs cfg.poseidon).accumulator.2.val : Int)
      ∧ toBigInt req.signal.x = some (i.signalX.val : Int)
      ∧ i.maxCost.val = cMax ∧ i.serverPublicKey = serverPublicKey cfg := by
  have hsignals := h.signals
  unfold Server.publicSignals at hsignals
  simp only [Option.bind_eq_bind, Option.bind_eq_some_iff, pure, Option.some.injEq, RequestInputs.publicSignals,
    List.map_cons, List.map_nil, List.cons.injEq, and_true] at hsignals
  obtain ⟨_, hn, _, hy, _, hax, _, hay, _, -, _, hx, rfl, rfl, rfl, rfl, -, hcMax, rfl, hkeyX, hkeyY⟩ := hsignals
  refine ⟨hn, hy, hax, hay, hx, (Int.ofNat.inj hcMax).symm, ?_⟩
  unfold serverPublicKey
  rw [hkeyX, hkeyY]
  exact Prod.ext (F.cast_val _).symm (F.cast_val _).symm

theorem Satisfies.published {req : LongjingRequestDto} {i : RequestInputs TREE_DEPTH} {p : Point}
    (h : Satisfies cfg lib cMax req i) (hx : parseFieldElement req.accumulator.x = some p.1)
    (hy : parseFieldElement req.accumulator.y = some p.2)
    : p = (((i.outputs cfg.poseidon).accumulator.1.val : Int),
        ((i.outputs cfg.poseidon).accumulator.2.val : Int)) := by
  obtain ⟨-, -, hax, hay, -⟩ := h.reads
  obtain ⟨-, -, -, -, -, hxdto, hydto⟩ := req.isFieldElement
  have hx' := (Server.toBigInt_of_parse hxdto hx).1
  have hy' := (Server.toBigInt_of_parse hydto hy).1
  exact Prod.ext (Option.some.inj (hx'.symm.trans hax)) (Option.some.inj (hy'.symm.trans hay))

/-- An accumulator that the circuits accept is genesis, or opens like one that was signed. -/
theorem Genuine.signed {log : List Event} {a : AccumulatorSignals} {commitment : F}
    (h : Genuine cfg lib witness log a commitment)
    (hopened : a.Opened cfg.poseidon lib commitment (serverPublicKey cfg))
    (hsigned : ∀ req b refund, .signed req b refund ∈ log →
      b = commit ((witness req).successor cfg.poseidon refund))
    : a.refunds = 0 ∧ a.index = 0
      ∨ ∃ req b refund, .signed req b refund ∈ log
        ∧ (a.opening commitment).Agrees ((witness req).successor cfg.poseidon refund) := by
  rcases hopened with ⟨hzero, hverifies⟩ | ⟨-, hrefunds, hindex, -⟩
  . obtain ⟨req, b, refund, hmem, hmessage⟩ := h.unforgeable hzero (lib.verifier_sound _ _ _ _ hverifies)
    have hpoint := h.collisionFree req b refund hmem hmessage
    refine Or.inr ⟨req, b, refund, hmem, h.binding req b refund hmem ?_⟩
    rw [AccumulatorSignals.commit_opening, ← hpoint]
    exact hsigned req b refund hmem
  . exact Or.inl ⟨hrefunds, hindex⟩

theorem Genuine.refunds_le {log : List Event} {a : AccumulatorSignals} {commitment : F}
    (h : Genuine cfg lib witness log a commitment)
    (hopened : a.Opened cfg.poseidon lib commitment (serverPublicKey cfg))
    (hlog : ∀ e ∈ log, Accounted cfg lib cMax witness e)
    : a.refunds.val ≤ a.index.val * cMax := by
  rcases h.signed hopened (fun req b refund hmem => (hlog _ hmem).1) with
    ⟨hrefunds, -⟩ | ⟨req, b, refund, hmem, hagrees⟩
  . rw [hrefunds, ZMod.val_zero]
    exact Nat.zero_le _
  . have hle := (hlog _ hmem).2
    rw [← hagrees.refunds, ← hagrees.index] at hle
    have hle : (a.refunds.val : Int) ≤ (a.index.val : Int) * cMax := hle
    exact_mod_cast hle

/-- One more event keeps the accounts: a request shows an opening that is covered, and its answer adds one
to the index and C_MAX at most to the refunds. -/
theorem Accounted.of_before {before : List Event} {e : Event}
    (hfollows : Server.Follows cfg cMax before e)
    (hideal : ∀ req, e = .accepted req → Satisfies cfg lib cMax req (witness req)
      ∧ Genuine cfg lib witness before (witness req).accumulator (cfg.poseidon.sig1 (witness req).secretKey))
    (hbefore : ∀ e' ∈ before, Accounted cfg lib cMax witness e') : Accounted cfg lib cMax witness e := by
  cases e with
  | accepted req =>
    obtain ⟨hsatisfies, hgenuine⟩ := hideal req rfl
    obtain ⟨hfacts, -⟩ := Circuit.requestFacts_of hsatisfies.request
    obtain ⟨-, -, -, -, -, -, hkey⟩ := hsatisfies.reads
    exact ⟨hsatisfies, hgenuine.refunds_le (hkey ▸ hfacts.opened) hbefore⟩
  | provider req => exact hbefore (.accepted req) hfollows
  | signed req a refund =>
    obtain ⟨hprovider, ⟨published, hx, hy, rfl⟩, hrefund⟩ := hfollows
    obtain ⟨hsatisfies, hcovered⟩ := hbefore (.provider req) hprovider
    refine ⟨?_, ?_⟩
    . rw [hsatisfies.published hx hy, Circuit.applyRefund_outputs]
    . show ((_ : Nat) : Int) + (refund : Nat) ≤ (((_ : Nat) : Int) + 1) * (cMax : Nat)
      have hnext : (witness req).accumulator.refunds.val + refund
          ≤ ((witness req).accumulator.index.val + 1) * cMax := by
        rw [Nat.add_mul, Nat.one_mul]
        omega
      exact_mod_cast hnext
  | ingested => trivial
  | slashRevealed => trivial
  | slash => trivial

theorem accounted {s : Server.State} (hissued : s.Issued cfg cMax)
    (hideal : Idealized cfg lib cMax witness s.events) : ∀ e ∈ s.events, Accounted cfg lib cMax witness e :=
  (hissued.log.and hideal).induction fun _ _ h hbefore => Accounted.of_before h.1 h.2 hbefore

/-- A settlement pays what is left of the deposit, out of an accumulator that is covered. -/
theorem payout_le {log : List Event} {i : SettlementInputs} {o : SettlementOutputs}
    (hsettlement : Circuit.Settlement cfg.poseidon lib i o) (hkey : i.serverPublicKey = serverPublicKey cfg)
    (hcMax : i.maxCost.val = cMax) (hgenuine : Genuine cfg lib witness log i.accumulator i.commitment)
    (hlog : ∀ e ∈ log, Accounted cfg lib cMax witness e)
    : (o.payout.val : Int) = i.deposit.val + i.accumulator.refunds.val - i.claimedIndex.val * cMax
      ∧ o.payout.val ≤ i.deposit.val := by
  have hfacts := Circuit.settlementFacts_of hsettlement
  have hcovered := hgenuine.refunds_le (hkey ▸ hfacts.opened) hlog
  have hclaimed : i.accumulator.index.val * cMax ≤ i.claimedIndex.val * cMax :=
    Nat.mul_le_mul_right _ hfacts.index_le
  have hpaid := hfacts.payout_eq
  rw [hcMax] at hpaid
  have hpaid' : (o.payout.val : Int) + i.claimedIndex.val * cMax = i.deposit.val + i.accumulator.refunds.val := by
    exact_mod_cast hpaid
  exact ⟨by omega, by omega⟩

/-- Any clients, any operator and any payees, next to one server. -/
def State.run (d : Deployment) (cfg : Server.Config) (rows : Js.Map String Server.StoredSignal)
    (actions : List Action) : State :=
  actions.foldl (State.step d cfg) (init d rows)

section Run

variable {d : Deployment} {rows : Js.Map String Server.StoredSignal}

theorem State.run_concat (actions : List Action) (a : Action)
    : State.run d cfg rows (actions ++ [a]) = (State.run d cfg rows actions).step d cfg a := by
  simp [State.run]

/-- What the server keeps while it reads one C_MAX holds along every run. -/
theorem State.run_server {Inv : Server.State → Prop} (hinit : Inv (Server.init rows))
    (hstep : ∀ s a, Inv s → (∀ i c, a = .resume i (.matched (some c)) → c = d.cMax) → Inv (s.step cfg a))
    (actions : List Action) : Inv (State.run d cfg rows actions).server := by
  induction actions using List.reverseRecOn with
  | nil => exact hinit
  | append_singleton actions a ih =>
    rw [State.run_concat]
    cases a with
    | chain a => exact ih
    | server a =>
      rcases @State.step_server d cfg (State.run d cfg rows actions) a with hstay | ⟨a', hground, hstep'⟩
      . rw [hstay]
        exact ih
      . rw [hstep']
        refine hstep _ a' ih ?_
        rintro i c rfl
        exact groundAction_matched hground

theorem State.reachable_run (actions : List Action)
    : ∃ actions', (State.run d cfg rows actions).chain = Credits.run d actions' := by
  induction actions using List.reverseRecOn with
  | nil => exact ⟨[], rfl⟩
  | append_singleton actions a ih =>
    rw [State.run_concat]
    exact State.reachable_step ih a

end Run

end System
end Longjing
