import Longjing.Server.Request

/-!
This module contains the JSON bodies that leave the server: of a response, and of an exception behind
`tee-exception.filter.ts`, which `main.ts` registers for every route.
-/

namespace Longjing
namespace Server

open Js

inductive Json where
  | number (n : Int)
  | string (s : String)
  | object (fields : List (String × Json))

def Json.field : Json → String → Option Json
  | .object fields, name => Map.get fields name
  | _, _ => none

def Json.toBigInt : Json → Option Int
  | .number n => some n
  | .string s => BigInt s
  | .object _ => none

def Signature.json (signature : Signature) : Json :=
  .object [("R8x", .string signature.R8x), ("R8y", .string signature.R8y), ("S", .string signature.S)]

def SignedAccumulatorDto.json (accumulator : SignedAccumulatorDto) : Json :=
  .object [("x", .string accumulator.x), ("y", .string accumulator.y),
    ("signature", accumulator.signature.json)]

/-- The body of a 200, but for the usage. -/
def LongjingResponseDto.json (response : LongjingResponseDto) : Json :=
  .object [("response", .string response.response), ("refund", .string response.refund),
    ("accumulator", response.accumulator.json)]

def FAILURE_MESSAGE : String := "The provider call failed. The whole of C_MAX is refunded."

/-- `exception.getStatus()`, and 500 for what is no `HttpException`. -/
def Thrown.status : Thrown → Nat
  | .http status _ => status
  | .badGateway _ _ => 502
  | .other => 500

/-- `exception.message`; for an exception with an object it is the object's `message`. -/
def Thrown.message : Thrown → String
  | .http _ message => message
  | .badGateway _ _ => FAILURE_MESSAGE
  | .other => "Internal server error"

/-- `exception.getResponse()` of the `BadGatewayException`, which no filter has seen. -/
def failureResponse (refund : String) (accumulator : SignedAccumulatorDto) : Json :=
  .object [("message", .string FAILURE_MESSAGE), ("refund", .string refund),
    ("accumulator", accumulator.json)]

/-- `TeeExceptionFilter.catch`. -/
def teeExceptionFilter (exception : Thrown) : Json :=
  .object [("statusCode", .number exception.status),
    ("message", .string (if exception.status = 500 then "Internal server error" else exception.message))]

/-- What is sent for an outcome of `handleRequest`. -/
def Outcome.body : Outcome → Json
  | .ok response => response.json
  | .error exception => teeExceptionFilter exception

theorem teeExceptionFilter_field (exception : Thrown) {name : String} (hstatus : name ≠ "statusCode")
    (hmessage : name ≠ "message") : (teeExceptionFilter exception).field name = none := by
  simp only [teeExceptionFilter, Json.field, Map.get_cons, if_neg hstatus, if_neg hmessage]
  rfl

end Server
end Longjing
