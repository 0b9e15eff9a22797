import BtTracker.Foundation.ByteOrder
import Mathlib.Data.List.Infix

/-!
# Glob-style patterns over byte strings

The patterns of the `KEYS` command: `*`, `?`, character classes with negation
and ranges, and backslash escapes.  A pattern is first split into tokens; a
token other than the star consumes exactly one byte.
-/

namespace BtTracker.Foundation

namespace Glob

/-- One element of a pattern. -/
inductive Token where
  | star
  | any
  | oneOf (negated : Bool) (ranges : List (Byte × Byte))
  | literal (byte : Byte)
  deriving DecidableEq, Repr

/-- Whether a token other than the star accepts a byte. -/
def Token.accepts : Token → Byte → Bool
  | .star, _ => false
  | .any, _ => true
  | .oneOf negated ranges, byte =>
      (ranges.any fun range => decide (range.1 ≤ byte ∧ byte ≤ range.2)) != negated
  | .literal expected, byte => expected == byte

/-- A range with its bounds in ascending order. -/
def orderedRange (left right : Byte) : Byte × Byte :=
  if left ≤ right then (left, right) else (right, left)

/-- The ranges of a character class and the pattern behind its closing bracket.
A class that is never closed extends to the end of the pattern. -/
def classRanges : (fuel : Nat) → Bytes → List (Byte × Byte) × Bytes
  | 0, pattern => ([], pattern)
  | _, [] => ([], [])
  | fuel + 1, byte :: rest =>
      if byte = 93 then ([], rest) -- `]`
      else
        let (range, rest) :=
          match rest with
          | second :: third :: tail =>
              if byte = 92 then ((second, second), third :: tail) -- `\`
              else if second = 45 then (orderedRange byte third, tail) -- `-`
              else ((byte, byte), rest)
          | [second] =>
              if byte = 92 then ((second, second), []) else ((byte, byte), rest)
          | [] => ((byte, byte), rest)
        let (ranges, behind) := classRanges fuel rest
        (range :: ranges, behind)

/-- Split a pattern into tokens.  Every round consumes a byte, so the length of
the pattern is fuel enough. -/
def tokensWithin : (fuel : Nat) → Bytes → List Token
  | 0, _ => []
  | _, [] => []
  | fuel + 1, byte :: rest =>
      if byte = 42 then .star :: tokensWithin fuel rest -- `*`
      else if byte = 63 then .any :: tokensWithin fuel rest -- `?`
      else if byte = 91 then -- `[`
        let negated := decide (rest.head? = some 94) -- `^`
        let body := if negated then rest.drop 1 else rest
        let (ranges, behind) := classRanges body.length body
        .oneOf negated ranges :: tokensWithin fuel behind
      else if byte = 92 then -- `\`
        match rest with
        | escaped :: behind => .literal escaped :: tokensWithin fuel behind
        | [] => [.literal byte]
      else .literal byte :: tokensWithin fuel rest

/-- The tokens of a pattern. -/
def tokens (pattern : Bytes) : List Token := tokensWithin pattern.length pattern

/-- Whether a token sequence matches a whole byte string. -/
def accepts : List Token → Bytes → Bool
  | [], text => text.isEmpty
  | .star :: rest, text => text.tails.any (accepts rest)
  | _ :: _, [] => false
  | token :: rest, byte :: text => token.accepts byte && accepts rest text

/-- Whether a pattern matches a whole byte string. -/
def isMatch (pattern text : Bytes) : Bool := accepts (tokens pattern) text

/-- A byte with no special meaning in a pattern. -/
def IsLiteral (byte : Byte) : Prop := byte ≠ 42 ∧ byte ≠ 63 ∧ byte ≠ 91 ∧ byte ≠ 92

instance (byte : Byte) : Decidable (IsLiteral byte) :=
  inferInstanceAs (Decidable (_ ∧ _))

private theorem tokensWithin_literals (literals : Bytes)
    (plain : ∀ byte ∈ literals, IsLiteral byte) (fuel : Nat) (rest : Bytes) :
    tokensWithin (literals.length + fuel) (literals ++ rest) =
      literals.map Token.literal ++ tokensWithin fuel rest := by
  induction literals with
  | nil => simp
  | cons byte literals ih =>
      obtain ⟨notStar, notAny, notClass, notEscape⟩ := plain byte (by simp)
      have tail := ih fun other member => plain other (by simp [member])
      rw [List.length_cons, Nat.add_right_comm]
      simp only [List.cons_append, tokensWithin, notStar, notAny, notClass, notEscape,
        if_false, tail, List.map_cons]

private theorem accepts_literals (literals : Bytes) (rest : List Token) (text : Bytes) :
    accepts (literals.map Token.literal ++ rest) text = true ↔
      ∃ behind, text = literals ++ behind ∧ accepts rest behind = true := by
  induction literals generalizing text with
  | nil => simp
  | cons byte literals ih =>
      cases text with
      | nil => simp [accepts]
      | cons head text =>
          simp only [List.map_cons, List.cons_append, accepts, Token.accepts,
            Bool.and_eq_true, beq_iff_eq, ih, List.cons.injEq]
          constructor
          · rintro ⟨same, behind, split, accepted⟩
            exact ⟨behind, ⟨same.symm, split⟩, accepted⟩
          · rintro ⟨behind, ⟨same, split⟩, accepted⟩
            exact ⟨same.symm, behind, split, accepted⟩

/-- A star at the end of a pattern accepts every remainder. -/
theorem accepts_star_only (text : Bytes) : accepts [.star] text = true := by
  simp only [accepts, List.any_eq_true, List.mem_tails]
  exact ⟨[], List.nil_suffix, rfl⟩

/-- A pattern of plain bytes followed by a star matches exactly the strings that
start with those bytes. -/
theorem isMatch_literals_star (literals text : Bytes)
    (plain : ∀ byte ∈ literals, IsLiteral byte) :
    isMatch (literals ++ ascii "*") text = true ↔ literals <+: text := by
  have star : tokensWithin 1 (ascii "*") = [.star] := by decide
  have split : tokens (literals ++ ascii "*") = literals.map Token.literal ++ [.star] := by
    have length : (literals ++ ascii "*").length = literals.length + 1 := by
      simp [ascii]
    rw [tokens, length, tokensWithin_literals literals plain, star]
  rw [isMatch, split, accepts_literals]
  constructor
  · rintro ⟨behind, rfl, _⟩
    exact List.prefix_append _ _
  · rintro ⟨behind, rfl⟩
    exact ⟨behind, rfl, accepts_star_only behind⟩

example : isMatch (ascii "h[a-c]l*") (ascii "hbllo") = true := by decide

end Glob

end BtTracker.Foundation
