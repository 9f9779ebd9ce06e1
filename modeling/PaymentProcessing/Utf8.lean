import Mathlib.Data.List.Basic

/-! UTF-8 with replacement characters. Reading bytes as text never fails: each maximal part
that begins like a character and does not become one is read as U+FFFD, so a text comes back
from its own bytes, and bytes from their text unless something was replaced. -/
namespace Utf8

/-- U+FFFD -/
def replacement : Char := Char.ofNat 0xFFFD

def encode (text : List Char) : List UInt8 := text.flatMap String.utf8EncodeChar

/-- The character that these bytes begin with. -/
def decodeChar (bytes : List UInt8) : Option Char := bytes.toByteArray.utf8DecodeChar? 0

def isContinuation (b : UInt8) : Bool := 0x80 ≤ b && b ≤ 0xBF

/-- Some character of three or four bytes begins with these two. -/
def begins (first second : UInt8) : Bool :=
  isContinuation second &&
    ((first == 0xE0 && 0xA0 ≤ second) || (0xE1 ≤ first && first ≤ 0xEC) ||
      (first == 0xED && second ≤ 0x9F) || (0xEE ≤ first && first ≤ 0xEF) ||
      (first == 0xF0 && 0x90 ≤ second) || (0xF1 ≤ first && first ≤ 0xF3) ||
      (first == 0xF4 && second ≤ 0x8F))

/-- How many bytes are replaced together where no character begins. -/
def replaced : List UInt8 → Nat
  | first :: second :: rest =>
      if begins first second then
        if 0xF0 ≤ first && (rest.head?.map isContinuation).getD false then 3 else 2
      else 1
  | _ => 1

/-- The text of the bytes after the first ones, which have been read. -/
def lossyFrom : Nat → List UInt8 → List Char
  | _, [] => []
  | read + 1, _ :: rest => lossyFrom read rest
  | 0, first :: rest =>
      match decodeChar (first :: rest) with
      | some c => c :: lossyFrom (c.utf8Size - 1) rest
      | none => replacement :: lossyFrom (replaced (first :: rest) - 1) rest

def lossy (bytes : List UInt8) : List Char := lossyFrom 0 bytes

example : lossy [0x48, 0xF0, 0x90, 0x80, 0x57, 0xC0, 0x80] =
    ['H', replacement, 'W', replacement, replacement] := by decide +kernel

variable {c : Char} {text : List Char} {bytes rest : List UInt8}

@[simp] theorem encode_cons : encode (c :: text) = String.utf8EncodeChar c ++ encode text := rfl

@[simp] theorem lossy_nil : lossy [] = [] := rfl

theorem encode_append (text text' : List Char) : encode (text ++ text') = encode text ++ encode text' :=
  List.flatMap_append

theorem lossyFrom_eq (read : Nat) (bytes : List UInt8) : lossyFrom read bytes = lossy (bytes.drop read) := by
  induction bytes generalizing read with
  | nil => cases read <;> rfl
  | cons first rest ih =>
    cases read with
    | zero => rfl
    | succ read => exact ih read

theorem decodeChar_encode (c : Char) (rest : List UInt8) :
    decodeChar (String.utf8EncodeChar c ++ rest) = some c := by
  rw [decodeChar, List.toByteArray_append]
  exact ByteArray.utf8DecodeChar?_utf8EncodeChar_append

theorem exists_of_decodeChar (h : decodeChar bytes = some c) :
    ∃ rest, bytes = String.utf8EncodeChar c ++ rest := by
  obtain ⟨rest, split⟩ := ByteArray.exists_of_utf8DecodeChar?_eq_some h
  refine ⟨rest.data.toList, ?_⟩
  have lists := congrArg (fun b : ByteArray => b.data.toList) split
  simpa using lists

theorem exists_encodeChar (c : Char) :
    ∃ first others, String.utf8EncodeChar c = first :: others ∧ others.length = c.utf8Size - 1 := by
  have length := String.length_utf8EncodeChar c
  have positive := c.utf8Size_pos
  cases bytes : String.utf8EncodeChar c with
  | nil =>
    rw [bytes] at length
    simp at length
    omega
  | cons first others =>
    rw [bytes] at length
    exact ⟨first, others, rfl, by simp at length; omega⟩

/-- What `lossy` does with a character. -/
theorem lossy_encodeChar (c : Char) (rest : List UInt8) :
    lossy (String.utf8EncodeChar c ++ rest) = c :: lossy rest := by
  obtain ⟨first, others, bytes, length⟩ := exists_encodeChar c
  have decoded := decodeChar_encode c rest
  rw [bytes, List.cons_append] at decoded ⊢
  simp only [lossy, lossyFrom, decoded]
  rw [lossyFrom_eq, ← length, List.drop_left]
  rfl

/-- What `lossy` does where no character begins. -/
theorem lossy_of_none (none : decodeChar (first :: rest) = none) :
    lossy (first :: rest) = replacement :: lossy (rest.drop (replaced (first :: rest) - 1)) := by
  simp only [lossy, lossyFrom, none]
  rw [lossyFrom_eq]
  rfl

theorem lossy_encode_append (text : List Char) (rest : List UInt8) :
    lossy (encode text ++ rest) = text ++ lossy rest := by
  induction text with
  | nil => rfl
  | cons c text ih => rw [encode_cons, List.append_assoc, lossy_encodeChar, ih, List.cons_append]

theorem lossy_encode (text : List Char) : lossy (encode text) = text := by
  have whole := lossy_encode_append text []
  rwa [List.append_nil, lossy_nil, List.append_nil] at whole

theorem encode_lossy (bytes : List UInt8) (whole : replacement ∉ lossy bytes) :
    encode (lossy bytes) = bytes := by
  cases bytes with
  | nil => rfl
  | cons first rest =>
    cases decoded : decodeChar (first :: rest) with
    | none =>
      rw [lossy_of_none decoded] at whole
      exact absurd List.mem_cons_self whole
    | some c =>
      obtain ⟨others, split⟩ := exists_of_decodeChar decoded
      have shorter : others.length < (first :: rest).length := by
        have positive := c.utf8Size_pos
        rw [split, List.length_append, String.length_utf8EncodeChar]
        omega
      rw [split, lossy_encodeChar] at whole ⊢
      rw [encode_cons, encode_lossy others fun inside => whole (List.mem_cons_of_mem c inside)]
termination_by bytes.length

/-- No character begins with 0xFF. -/
theorem lossy_ff (rest : List UInt8) : lossy (0xFF :: rest) = replacement :: lossy rest := by
  have none : decodeChar (0xFF :: rest) = none := by
    cases decoded : decodeChar (0xFF :: rest) with
    | none => rfl
    | some c =>
      obtain ⟨others, split⟩ := exists_of_decodeChar decoded
      obtain ⟨first, tail, bytes, -⟩ := exists_encodeChar c
      have leads := UInt8.isUTF8FirstByte_getElem_zero_utf8EncodeChar (c := c)
      simp only [bytes, List.getElem_cons_zero] at leads
      rw [bytes, List.cons_append, List.cons.injEq] at split
      rw [← split.1] at leads
      exact absurd leads (by decide)
  have single : replaced (0xFF :: rest) = 1 := by
    cases rest with
    | nil => rfl
    | cons second rest =>
      have never : begins 0xFF second = false := by simp [begins]
      simp [replaced, never]
  rw [lossy_of_none none, single]
  rfl

/-- Bytes are known from their text exactly when they are those of a text without a
replacement character. -/
theorem lossy_determines_iff (bytes : List UInt8) :
    (∀ other, lossy other = lossy bytes → other = bytes) ↔
      ∃ text, replacement ∉ text ∧ bytes = encode text := by
  constructor
  · intro known
    have valid := known (encode (lossy bytes)) (lossy_encode _)
    refine ⟨lossy bytes, fun inside => ?_, valid.symm⟩
    obtain ⟨before, after, split⟩ := List.append_of_mem inside
    have collides : lossy (encode before ++ 0xFF :: encode after) = lossy bytes := by
      rw [lossy_encode_append, lossy_ff, lossy_encode, split]
    have same := known _ collides
    rw [← valid, split, encode_append] at same
    have tail := List.append_cancel_left same
    rw [encode_cons, show String.utf8EncodeChar replacement = [0xEF, 0xBF, 0xBD] by decide] at tail
    have first := (List.cons.inj tail).1
    contradiction
  · rintro ⟨text, plain, rfl⟩ other same
    rw [lossy_encode] at same
    have whole : replacement ∉ lossy other := same ▸ plain
    rw [← same, encode_lossy other whole]

end Utf8
