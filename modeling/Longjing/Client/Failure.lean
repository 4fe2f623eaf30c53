import Longjing.Client.Note
import Longjing.Server.Filter
import Longjing.Server.Lemmas.Issued

/-!
What a failed provider call refunds, and what the client can make of the body it is told so in.
-/

namespace Longjing
namespace Server

variable (cfg : Config)

/-- A failure refunds all of C_MAX over an accumulator that was published. -/
def Kept.RefundsAll : Kept → Prop
  | .response _ => True
  | .failure refund accumulator =>
    ∃ published cMax, refund = toString cMax ∧ accumulator = nextAccumulator cfg published cMax

variable {cfg}

theorem State.refundsAll_run (rows : Js.Map String StoredSignal) (actions : List Action)
    : ((init rows).run cfg actions).KeptAll (Kept.RefundsAll cfg) := by
  have hrun (s : State) (h : s.KeptAll (Kept.RefundsAll cfg))
      : (s.run cfg actions).KeptAll (Kept.RefundsAll cfg) := by
    induction actions generalizing s with
    | nil => exact h
    | cons a actions ih =>
      refine ih _ (h.step a ?_)
      intro exec _ ticket refund kept _ _ hcarries
      cases kept with
      | response r => trivial
      | failure r accumulator => exact ⟨ticket.published, refund, hcarries.1, hcarries.2⟩
  exact hrun _ ⟨by simp [init], by simp [init]⟩

end Server

namespace Client

open Accumulator
open Credits (EdDSAPublicKey)
open Server (Json Outcome SignedAccumulatorDto Thrown failureResponse nextAccumulator teeExceptionFilter)

/-- `JSON.parse` of a body, as `receive` reads it. -/
def RequestResponse.ofJson (body : Json) : RequestResponse where
  refund := (body.field "refund").bind Json.toBigInt
  x := (body.field "accumulator").bind fun a => (a.field "x").bind Json.toBigInt
  y := (body.field "accumulator").bind fun a => (a.field "y").bind Json.toBigInt
  R8x := (body.field "accumulator").bind fun a =>
    (a.field "signature").bind fun s => (s.field "R8x").bind Json.toBigInt
  R8y := (body.field "accumulator").bind fun a =>
    (a.field "signature").bind fun s => (s.field "R8y").bind Json.toBigInt
  S := (body.field "accumulator").bind fun a =>
    (a.field "signature").bind fun s => (s.field "S").bind Json.toBigInt

variable (tools : Tools) (note : NoteFile) (key : EdDSAPublicKey)

/-- The body carries the refund and the accumulator of the exception, and `receive` folds them into the
note. -/
structure FailureReceived (refund : String) (accumulator : SignedAccumulatorDto) (body : Json) : Prop where
  refund_eq : body.field "refund" = some (.string refund)
  accumulator_eq : body.field "accumulator" = some accumulator.json
  folded : ∃ pending v signature, note.pending = some pending ∧ Js.BigInt refund = some v
    ∧ receive tools note (.ofJson body) key = some (foldResponse note key pending.rerandomizer v signature)

/-- A request that ended with the exception of a failed provider call, now or by a retry. -/
def Failed (s : Server.State) (refund : String) (accumulator : SignedAccumulatorDto) : Prop :=
  ∃ exec ∈ s.execs, exec.pc = .done (.error (.badGateway refund accumulator))

variable {tools note key}

theorem ofJson_signed {body : Json} {refund : String} {accumulator : SignedAccumulatorDto}
    (hrefund : body.field "refund" = some (.string refund))
    (haccumulator : body.field "accumulator" = some accumulator.json)
    : RequestResponse.ofJson body
      = ⟨Js.BigInt refund, Js.BigInt accumulator.x, Js.BigInt accumulator.y,
          Js.BigInt accumulator.signature.R8x, Js.BigInt accumulator.signature.R8y,
          Js.BigInt accumulator.signature.S⟩ := by
  simp only [RequestResponse.ofJson, hrefund, haccumulator, Option.bind_some]
  simp [Json.field, Json.toBigInt, Js.Map.get_cons, SignedAccumulatorDto.json, Server.Signature.json]

theorem failureResponse_fields (refund : String) (accumulator : SignedAccumulatorDto)
    : (failureResponse refund accumulator).field "refund" = some (.string refund)
      ∧ (failureResponse refund accumulator).field "accumulator" = some accumulator.json := by
  simp [failureResponse, Json.field, Js.Map.get_cons]

/-- The object of the exception would be folded: a refund and a signed accumulator over what the client
published. -/
theorem failureReceived_unfiltered {cfg : Server.Config} {pending : Pending} {cMax : Nat} {signature : Signature}
    {published : Point} (hpending : note.pending = some pending)
    (hpublished : published
      = rerandomize (commit (openingOf note (commitmentOf tools note))) pending.rerandomizer)
    (hR8x : Js.BigInt (cfg.sign (applyRefund published cMax)).R8x = some signature.R8x)
    (hR8y : Js.BigInt (cfg.sign (applyRefund published cMax)).R8y = some signature.R8y)
    (hS : Js.BigInt (cfg.sign (applyRefund published cMax)).S = some signature.S)
    (hverify : verifyPoseidon tools
      (tools.poseidon.sig2 ((applyRefund published cMax).1 : F) ((applyRefund published cMax).2 : F))
      signature (keySignals key) = true)
    : FailureReceived tools note key (toString cMax) (nextAccumulator cfg published cMax)
        (failureResponse (toString cMax) (nextAccumulator cfg published cMax)) := by
  have hread (n : Int) : Js.BigInt (toString n) = some n := Js.BigInt_intRepr n
  have hrefund : Js.BigInt (toString cMax) = some (cMax : Int) := Js.BigInt_repr cMax
  have hexpected : expectedAccumulator tools note pending.rerandomizer cMax = applyRefund published cMax := by
    rw [hpublished, expectedAccumulator]
  obtain ⟨hfield, haccumulator⟩ := failureResponse_fields (toString cMax) (nextAccumulator cfg published cMax)
  refine ⟨hfield, haccumulator, pending, cMax, signature, hpending, hrefund, ?_⟩
  rw [ofJson_signed hfield haccumulator]
  refine receive_eq_some.mpr ⟨pending, cMax, signature, hpending, hrefund, hR8x, hR8y, hS, ?_, ?_, ?_, rfl⟩
  . rw [hexpected]
    exact hread _
  . rw [hexpected]
    exact hread _
  . rw [hexpected]
    exact hverify

/-- The filter drops both fields, so the client reads neither. -/
theorem receive_filtered (exception : Thrown)
    : receive tools note (.ofJson (teeExceptionFilter exception)) key = none := by
  cases hreceive : receive tools note (.ofJson (teeExceptionFilter exception)) key with
  | none => rfl
  | some note' =>
    obtain ⟨pending, refund, signature, -, hrefund, -⟩ := receive_eq_some.mp hreceive
    have hfield : (teeExceptionFilter exception).field "refund" = none :=
      Server.teeExceptionFilter_field exception (by decide) (by decide)
    simp [RequestResponse.ofJson, hfield] at hrefund

/-- A request whose provider call failed was refunded all of C_MAX, and no client receives it: not from
the first answer, not from a retry. -/
theorem failure_not_received (cfg : Server.Config) (rows : Js.Map String Server.StoredSignal)
    (actions : List Server.Action) (refund : String) (accumulator : SignedAccumulatorDto)
    (hfailed : Failed ((Server.init rows).run cfg actions) refund accumulator)
    : (∃ published cMax, refund = toString cMax ∧ accumulator = nextAccumulator cfg published cMax)
      ∧ ∀ (tools : Tools) (note : NoteFile) (key : EdDSAPublicKey),
          ¬ FailureReceived tools note key refund accumulator
              (Outcome.body (.error (.badGateway refund accumulator))) := by
  constructor
  . obtain ⟨exec, hexec, hpc⟩ := hfailed
    exact (Server.State.refundsAll_run rows actions).execs exec hexec (.failure refund accumulator) hpc
  . intro tools note key hreceived
    obtain ⟨pending, v, signature, -, -, hfold⟩ := hreceived.folded
    rw [Outcome.body, receive_filtered] at hfold
    simp at hfold

section Example

open Server

def exampleFailure : List Server.Action :=
  [.arrive exampleRequest, .resume 0 (.matched (some 10)), .resume 0 (.cost (some 1)),
    .resume 0 (.verified ⟨true, false, some fun _ => true⟩ true), .resume 0 (.provider none), .resume 0 (.signed true)]

theorem exampleFailure_failed
    : Failed ((Server.init []).run exampleConfig exampleFailure) "10" (nextAccumulator exampleConfig (0, 1) 10) := by
  have hsplit : exampleFailure
      = exampleRecorded ++ [.resume 0 (.provider none), .resume 0 (.signed true)] := rfl
  have hten : toString 10 = "10" := by decide
  rw [hsplit, State.run_append, exampleRecorded_run]
  refine ⟨⟨exampleRequest, .done (.error (.badGateway "10" (nextAccumulator exampleConfig (0, 1) 10)))⟩, ?_, rfl⟩
  simp only [State.run, List.foldl_cons, List.foldl_nil, State.step, List.getElem?_cons_zero,
    List.set_cons_zero, resume, afterCalling, afterRefunding, if_true, Kept.outcome, hten]
  exact List.mem_singleton_self _

theorem failure_not_received_example
    : (∃ published cMax, "10" = toString cMax
        ∧ nextAccumulator exampleConfig (0, 1) 10 = nextAccumulator exampleConfig published cMax)
      ∧ ∀ (tools : Tools) (note : NoteFile) (key : EdDSAPublicKey),
          ¬ FailureReceived tools note key "10" (nextAccumulator exampleConfig (0, 1) 10)
              (Outcome.body (.error (.badGateway "10" (nextAccumulator exampleConfig (0, 1) 10)))) :=
  failure_not_received exampleConfig [] exampleFailure "10" _ exampleFailure_failed

/-- The 502 that leaves the server has no refund and no accumulator. -/
theorem failure_body_stripped
    : Failed ((Server.init []).run exampleConfig exampleFailure) "10" (nextAccumulator exampleConfig (0, 1) 10)
      ∧ (Outcome.body (.error (.badGateway "10" (nextAccumulator exampleConfig (0, 1) 10)))).field "refund" = none
      ∧ (Outcome.body (.error (.badGateway "10" (nextAccumulator exampleConfig (0, 1) 10)))).field "accumulator"
        = none
      ∧ ∀ (tools : Tools) (note : NoteFile) (key : EdDSAPublicKey),
          receive tools note (.ofJson (Outcome.body
            (.error (.badGateway "10" (nextAccumulator exampleConfig (0, 1) 10))))) key = none := by
  refine ⟨exampleFailure_failed, ?_, ?_, fun tools note key => receive_filtered _⟩
  . exact teeExceptionFilter_field _ (by decide) (by decide)
  . exact teeExceptionFilter_field _ (by decide) (by decide)

end Example

end Client
end Longjing
