import Longjing.Attestation.EventLog
import Longjing.Server.Request
import Mathlib.Data.List.TakeWhile

/-!
This module contains `response-padding.util.ts`, and how a padded response is written into a body.
-/

namespace Longjing
namespace Server

open Attestation (hexChar)

def PADDING_MARKER : Char := '\x00'

/-- What comes before the first marker. -/
def unpadResponse (paddedContent : String) : String :=
  String.ofList (paddedContent.toList.takeWhile (· ≠ PADDING_MARKER))

def getSizeClass (contentLength : Nat) : Nat :=
  (SIZE_CLASSES.find? (contentLength ≤ ·)).getD (2 ^ Nat.clog 2 contentLength)

/-- How `JSON.stringify` writes a character of a string. -/
def jsonChar (c : Char) : List Char :=
  if c = '"' then ['\\', '"']
  else if c = '\\' then ['\\', '\\']
  else if c = '\x08' then ['\\', 'b']
  else if c = '\x0c' then ['\\', 'f']
  else if c = '\n' then ['\\', 'n']
  else if c = '\r' then ['\\', 'r']
  else if c = '\t' then ['\\', 't']
  else if c.toNat < 0x20 then ['\\', 'u', '0', '0', hexChar (c.toNat / 16), hexChar (c.toNat % 16)]
  else [c]

def jsonString (s : String) : String := String.ofList ('"' :: s.toList.flatMap jsonChar ++ ['"'])

/-- No character is written differently in JSON. -/
def Unescaped (s : String) : Prop := ∀ c ∈ s.toList, jsonChar c = [c]

instance (s : String) : Decidable (Unescaped s) := List.decidableBAll (fun c => jsonChar c = [c]) s.toList

def utf8Length (cs : List Char) : Nat := (cs.map Char.utf8Size).sum

theorem utf8ByteSize_ofList (cs : List Char) : (String.ofList cs).utf8ByteSize = utf8Length cs := by
  induction cs with
  | nil => rfl
  | cons c cs ih =>
    rw [← List.singleton_append, String.ofList_append, String.utf8ByteSize_append, ih]
    simp [utf8Length]

theorem utf8ByteSize_eq (s : String) : s.utf8ByteSize = utf8Length s.toList := by
  rw [← utf8ByteSize_ofList, String.ofList_toList]

theorem utf8Length_append (cs cs' : List Char) : utf8Length (cs ++ cs') = utf8Length cs + utf8Length cs' := by
  simp [utf8Length]

theorem utf8Length_replicate (n : Nat) (c : Char) : utf8Length (List.replicate n c) = n * c.utf8Size := by
  simp [utf8Length]

theorem le_getSizeClass (n : Nat) : n ≤ getSizeClass n := by
  unfold getSizeClass
  cases hfind : SIZE_CLASSES.find? (n ≤ ·) with
  | none => exact Nat.le_pow_clog (by decide) n
  | some size => simpa using List.find?_some hfind

theorem toList_padResponse (content : String)
    : (padResponse content).toList
      = content.toList
        ++ List.replicate (getSizeClass content.utf8ByteSize - content.utf8ByteSize) PADDING_MARKER := by
  simp [padResponse, getSizeClass, PADDING_MARKER]

theorem utf8ByteSize_padResponse (content : String)
    : (padResponse content).utf8ByteSize = getSizeClass content.utf8ByteSize := by
  have hmarker : PADDING_MARKER.utf8Size = 1 := by decide
  have hle := le_getSizeClass content.utf8ByteSize
  rw [utf8ByteSize_eq, toList_padResponse, utf8Length_append, utf8Length_replicate, ← utf8ByteSize_eq, hmarker]
  omega

theorem unpadResponse_padResponse_iff (content : String)
    : unpadResponse (padResponse content) = content ↔ PADDING_MARKER ∉ content.toList := by
  unfold unpadResponse
  rw [toList_padResponse]
  constructor
  . intro h hmem
    rw [← h, String.toList_ofList] at hmem
    simpa using List.mem_takeWhile_imp hmem
  . intro hmem
    have hall : ∀ c ∈ content.toList, decide (c ≠ PADDING_MARKER) = true := by
      intro c hc
      simp only [decide_eq_true_eq]
      exact fun heq => hmem (heq ▸ hc)
    rw [List.takeWhile_append_of_pos hall, List.takeWhile_replicate]
    simp

/-- Padding has the size of its class, and comes off again unless the content has a marker of its own. -/
theorem padResponse_roundtrip_iff (content : String)
    : (unpadResponse (padResponse content) = content
        ∧ (padResponse content).utf8ByteSize = getSizeClass content.utf8ByteSize)
      ↔ '\x00' ∉ content.toList := by
  rw [unpadResponse_padResponse_iff]
  exact and_iff_left (utf8ByteSize_padResponse content)

/-- The content has a marker of its own, and is cut there. -/
theorem unpadResponse_truncates
    : unpadResponse (padResponse "a\x00b") = "a"
      ∧ ¬ (unpadResponse (padResponse "a\x00b") = "a\x00b"
        ∧ (padResponse "a\x00b").utf8ByteSize = getSizeClass "a\x00b".utf8ByteSize) := by
  have hcut : unpadResponse (padResponse "a\x00b") = "a" := by
    unfold unpadResponse
    rw [toList_padResponse]
    rfl
  refine ⟨hcut, fun h => ?_⟩
  rw [hcut] at h
  exact absurd h.1 (by decide)

theorem flatMap_jsonChar_of_unescaped {cs : List Char} (h : ∀ c ∈ cs, jsonChar c = [c])
    : cs.flatMap jsonChar = cs := by
  induction cs with
  | nil => rfl
  | cons c cs ih =>
    rw [List.forall_mem_cons] at h
    rw [List.flatMap_cons, h.1, ih h.2, List.singleton_append]

theorem utf8Length_escaped_padding (n : Nat)
    : utf8Length ((List.replicate n PADDING_MARKER).flatMap jsonChar) = 6 * n := by
  induction n with
  | zero => rfl
  | succ n ih =>
    have hmarker : utf8Length (jsonChar PADDING_MARKER) = 6 := by decide
    rw [List.replicate_succ, List.flatMap_cons, utf8Length_append, ih, hmarker]
    omega

/-- A byte of padding is six on the wire. -/
theorem utf8ByteSize_jsonString_padResponse {content : String} (h : Unescaped content)
    : (jsonString (padResponse content)).utf8ByteSize
      = 2 + content.utf8ByteSize + 6 * (getSizeClass content.utf8ByteSize - content.utf8ByteSize) := by
  have hquote : utf8Length ['"'] = 1 := by decide
  have hcons (cs : List Char) : utf8Length ('"' :: cs) = 1 + utf8Length cs := by
    rw [← List.singleton_append, utf8Length_append, hquote]
  unfold jsonString
  rw [utf8ByteSize_ofList, List.cons_append, hcons, utf8Length_append, hquote, toList_padResponse,
    List.flatMap_append, flatMap_jsonChar_of_unescaped h, utf8Length_append, utf8Length_escaped_padding,
    ← utf8ByteSize_eq]
  omega

/-- Within a class, the length of the body still tells the length of the content. -/
theorem jsonString_padResponse_size_iff {content content' : String} (h : Unescaped content)
    (h' : Unescaped content')
    (hclass : getSizeClass content.utf8ByteSize = getSizeClass content'.utf8ByteSize)
    : (jsonString (padResponse content)).utf8ByteSize = (jsonString (padResponse content')).utf8ByteSize
      ↔ content.utf8ByteSize = content'.utf8ByteSize := by
  have hle := le_getSizeClass content.utf8ByteSize
  have hle' := le_getSizeClass content'.utf8ByteSize
  rw [utf8ByteSize_jsonString_padResponse h, utf8ByteSize_jsonString_padResponse h', ← hclass]
  omega

/-- Two contents of five bytes. -/
theorem jsonString_padResponse_size_words
    : Unescaped "hello" ∧ Unescaped "world"
      ∧ getSizeClass "hello".utf8ByteSize = getSizeClass "world".utf8ByteSize
      ∧ (jsonString (padResponse "hello")).utf8ByteSize = (jsonString (padResponse "world")).utf8ByteSize :=
  ⟨by decide +kernel, by decide +kernel, by decide +kernel,
    (jsonString_padResponse_size_iff (by decide +kernel) (by decide +kernel) (by decide +kernel)).mpr
      (by decide +kernel)⟩

/-- "yes" and "no" are of one class, and five bytes apart in the body. -/
theorem jsonString_padResponse_size_differs
    : Unescaped "yes" ∧ Unescaped "no" ∧ getSizeClass "yes".utf8ByteSize = getSizeClass "no".utf8ByteSize
      ∧ (jsonString (padResponse "yes")).utf8ByteSize = 3059
      ∧ (jsonString (padResponse "no")).utf8ByteSize = 3064 := by
  have hyes : Unescaped "yes" := by decide +kernel
  have hno : Unescaped "no" := by decide +kernel
  refine ⟨hyes, hno, by decide +kernel, ?_, ?_⟩
  . rw [utf8ByteSize_jsonString_padResponse hyes]
    decide +kernel
  . rw [utf8ByteSize_jsonString_padResponse hno]
    decide +kernel

end Server
end Longjing
