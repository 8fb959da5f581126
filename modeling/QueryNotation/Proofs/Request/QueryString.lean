import Mathlib.Algebra.Ring.Nat
import Mathlib.Data.List.Perm.Basic
import QueryNotation.Proofs.Text.Blank
import QueryNotation.Proofs.Text.Cut
import QueryNotation.Proofs.Text.Percent
import QueryNotation.Request.Basic

namespace QueryNotation.QueryString

/-! # Reading back parameters

Escaping leaves none of the characters that separate parameters, so every list of
parameters, empty keys and values among them, is read back from its text.
-/

open Text

/-- The characters with a meaning in a query string do not stand in escaped text. -/
theorem special_not_mem_escape {c : Char} (special : c ∈ ['&', '=', '+', ' ']) (text : String) :
    c ∉ (escape text).toList := by
  intro member
  rw [escape, String.toList_ofList] at member
  simp only [List.mem_cons, List.not_mem_nil, or_false] at special
  rcases special with rfl | rfl | rfl | rfl <;>
    rcases percentEncode_mem member with ⟨_, kept⟩ | same | digit | upper <;>
    simp_all +decide

theorem unescape_escape (text : String) : unescape (escape text).toList = text := by
  have plain : (escape text).toList.map (fun c => if c = '+' then ' ' else c) =
      (escape text).toList := by
    rw [List.map_congr_left (g := id), List.map_id]
    intro c member
    have other : c ≠ '+' := by
      rintro rfl
      exact special_not_mem_escape (by simp) text member
    simp [other]
  simp only [unescape, plain]
  rw [escape, String.toList_ofList, decode_percentEncode (by decide), String.ofList_toList]

/-- One parameter as it is written. -/
theorem read_pair (key value : String) :
    cutFirst '=' (escape key ++ "=" ++ escape value).toList =
      some ((escape key).toList, (escape value).toList) := by
  rw [String.toList_append, String.toList_append, List.append_assoc]
  exact cutFirst_append (special_not_mem_escape (by simp) key) _

theorem decode_encode (pairs : List (String × String)) : decode (encode pairs) = pairs := by
  have texts : words (· == '&') (encode pairs).toList =
      pairs.map fun pair => (escape pair.1 ++ "=" ++ escape pair.2).toList := by
    rw [encode, String.toList_intercalate, List.map_map]
    refine words_intercalate (by decide) ?_ ?_
    · intro part member c inside
      obtain ⟨pair, _, rfl⟩ := List.mem_map.mp member
      rw [beq_eq_false_iff_ne]
      rintro rfl
      simp only [Function.comp_apply, String.toList_append, List.mem_append] at inside
      rcases inside with (inside | inside) | inside
      · exact special_not_mem_escape (by simp) _ inside
      · simp at inside
      · exact special_not_mem_escape (by simp) _ inside
    · intro part member
      obtain ⟨pair, _, rfl⟩ := List.mem_map.mp member
      simp
  rw [decode, texts, List.map_map]
  refine (List.map_congr_left ?_).trans (List.map_id pairs)
  intro pair _
  simp only [Function.comp_apply, read_pair, unescape_escape]
  rfl

/-- The bytes that pieces take up, each with one mark. -/
def spaceOf (parts : List (List Char)) : Nat :=
  (parts.map fun part => (String.ofList part).utf8ByteSize + 1).sum

theorem size_cons (c : Char) (text : List Char) :
    (String.ofList (c :: text)).utf8ByteSize = c.utf8Size + (String.ofList text).utf8ByteSize := by
  rw [show c :: text = [c] ++ text from rfl, String.ofList_append, String.utf8ByteSize_append]
  simp

theorem spaceOf_pieces (text : List Char) :
    spaceOf (pieces (· == '&') text) = (String.ofList text).utf8ByteSize + 1 := by
  induction text with
  | nil => rfl
  | cons c rest induction =>
      rw [pieces, size_cons]
      split
      · next mark =>
        obtain rfl := eq_of_beq mark
        have size : ('&' : Char).utf8Size = 1 := rfl
        simp only [spaceOf, List.map_cons, List.sum_cons] at induction ⊢
        rw [induction, size]
        simp
        omega
      · split
        · next none => exact absurd none (pieces_ne_nil _ rest)
        · next first more shape =>
          rw [shape] at induction
          simp only [spaceOf, List.map_cons, List.sum_cons, size_cons] at induction ⊢
          omega

theorem spaceOf_filter (keep : List Char → Bool) (parts : List (List Char)) :
    spaceOf (parts.filter keep) ≤ spaceOf parts := by
  induction parts with
  | nil => exact Nat.le_refl _
  | cons first rest induction =>
      rw [List.filter_cons]
      split <;> simp only [spaceOf, List.map_cons, List.sum_cons] at induction ⊢ <;> omega

/-- Words that are joined take up no more bytes than the text they were taken from. -/
theorem size_joined {text : List Char} {parts : List (List Char)} (perm : parts.Perm (words (· == '&') text)) :
    (String.ofList (['&'].intercalate parts)).utf8ByteSize ≤ (String.ofList text).utf8ByteSize := by
  cases parts with
  | nil => simp
  | cons first rest =>
      have absent : ∀ part ∈ first :: rest, ∀ c ∈ part, (c == '&') = false :=
        fun part listed => (of_mem_words (perm.mem_iff.mp listed)).1
      have joined := spaceOf_pieces (['&'].intercalate (first :: rest))
      rw [pieces_intercalate rfl (by simp) absent] at joined
      have same : spaceOf (first :: rest) = spaceOf (words (· == '&') text) := (perm.map _).sum_nat
      have fewer : spaceOf (words (· == '&') text) ≤ spaceOf (pieces (· == '&') text) :=
        spaceOf_filter _ _
      have whole := spaceOf_pieces text
      omega

/-- The parameters of a text can be written in any order, in no more bytes. -/
theorem exists_permuted (text : String) {others : List (String × String)} (perm : others.Perm (decode text)) :
    ∃ other, decode other = others ∧ other.utf8ByteSize ≤ text.utf8ByteSize := by
  obtain ⟨readPiece, decoded⟩ : ∃ readPiece : List Char → String × String,
      ∀ text : String, decode text = (words (· == '&') text.toList).map readPiece := ⟨_, fun _ => rfl⟩
  have alike : List.Forall₂ (fun pair piece => pair = readPiece piece) (decode text)
      (words (· == '&') text.toList) := by
    rw [decoded]
    exact List.forall₂_map_left_iff.mpr (List.forall₂_same.mpr fun _ _ => rfl)
  obtain ⟨parts, read, taken⟩ := List.perm_comp_forall₂ perm alike
  have found : words (· == '&') (['&'].intercalate parts) = parts :=
    words_intercalate rfl (fun part listed => (of_mem_words (taken.mem_iff.mp listed)).1)
      fun part listed => (of_mem_words (taken.mem_iff.mp listed)).2
  have same : parts.map readPiece = others := by
    have both : List.Forall₂ (· = ·) others (parts.map readPiece) := List.forall₂_map_right_iff.mpr read
    rw [List.forall₂_eq_eq_eq] at both
    exact both.symm
  refine ⟨String.ofList (['&'].intercalate parts), ?_, ?_⟩
  · rw [decoded, String.toList_ofList, found, same]
  · have size := size_joined taken
    rwa [String.ofList_toList] at size

end QueryNotation.QueryString

namespace QueryNotation.Request

/-- The parameters of a request are read back from its query, whatever their keys and values hold. -/
theorem decode_queryString (request : Request) :
    QueryString.decode request.queryString = request.query :=
  QueryString.decode_encode request.query

end QueryNotation.Request
