import Dialogue.Json.Fault
import Dialogue.Text.Hex

/-!
# Tokens of a document

Splitting a text into tokens never fails: a word, number or quoted text that breaks off is a token
of its own kind, and it is the reader of the token who says what is wrong. A quoted text keeps its
UTF-16 units, since not every reader asks that they pair up.
-/
namespace Dialogue.Json

inductive Piece where
  | plain (c : Char)
  | unit (n : Nat)
  deriving DecidableEq, Repr

/-- How a quoted text ends: by its quote, or at the place where it breaks off. -/
inductive Ending where
  | closed
  | endOfText
  | control
  | badEscape
  | badUnit
  deriving DecidableEq, Repr

structure Quoted where
  pieces : List Piece
  ending : Ending
  deriving DecidableEq, Repr

inductive Token where
  | listOpen
  | listClose
  | objectOpen
  | objectClose
  | comma
  | colon
  | null
  | bool (b : Bool)
  | number (n : Numeral)
  | text (q : Quoted)
  | brokenWord (atEnd : Bool)
  | brokenNumber (atEnd : Bool)
  | stray
  deriving DecidableEq, Repr

def isSpace (c : Char) : Bool := c = ' ' || c = '\t' || c = '\n' || c = '\r'

def isDigit (c : Char) : Bool := '0' ≤ c && c ≤ '9'

/-- The character that a backslash and a letter stand for. -/
def unescape? (c : Char) : Option Char :=
  if c = '"' ∨ c = '\\' ∨ c = '/' then some c
  else if c = 'b' then some '\x08'
  else if c = 'f' then some '\x0c'
  else if c = 'n' then some '\n'
  else if c = 'r' then some '\r'
  else if c = 't' then some '\t'
  else none

/-- The ending of a text in which the digits of a unit are not there: the text ends if fewer than
four bytes are left. -/
def missingUnit (cs : List Char) : Ending :=
  if (cs.take 4).foldl (fun n c => n + c.utf8Size) 0 < 4 then .endOfText else .badUnit

def withPiece (p : Piece) (r : Quoted × List Char) : Quoted × List Char :=
  (⟨p :: r.1.pieces, r.1.ending⟩, r.2)

/-- The pieces up to the ending of a quoted text, and what follows it. -/
def scanQuoted : List Char → Quoted × List Char
  | [] => (⟨[], .endOfText⟩, [])
  | '"' :: cs => (⟨[], .closed⟩, cs)
  | ['\\'] => (⟨[], .endOfText⟩, [])
  | '\\' :: 'u' :: a :: b :: c :: d :: cs =>
    match Text.hexQuad? a b c d with
    | some n => withPiece (.unit n) (scanQuoted cs)
    | none => (⟨[], missingUnit [a, b, c, d]⟩, [])
  | '\\' :: 'u' :: cs => (⟨[], missingUnit cs⟩, [])
  | '\\' :: e :: cs =>
    match unescape? e with
    | some c => withPiece (.plain c) (scanQuoted cs)
    | none => (⟨[], .badEscape⟩, [])
  | c :: cs =>
    if c.toNat < 0x20 then (⟨[], .control⟩, [])
    else withPiece (.plain c) (scanQuoted cs)

/-- The rest of a word, given the characters it must have. -/
def scanWord (token : Token) : List Char → List Char → Token × List Char
  | [], cs => (token, cs)
  | _ :: _, [] => (.brokenWord true, [])
  | w :: ws, c :: cs => if c = w then scanWord token ws cs else (.brokenWord false, [])

/-- The digits at the head, which must be there, and what follows them. -/
def scanDigits (cs : List Char) : Except Bool (List Char × List Char) :=
  match cs.takeWhile isDigit with
  | [] => .error cs.isEmpty
  | ds => .ok (ds, cs.dropWhile isDigit)

/-- The digits before a point: a zero at the head stands alone. -/
def scanWhole : List Char → Except Bool (List Char × List Char)
  | '0' :: cs => if (cs.takeWhile isDigit).isEmpty then .ok (['0'], cs) else .error false
  | cs => scanDigits cs

def scanFraction : List Char → Except Bool (Option (List Char) × List Char)
  | '.' :: cs => (scanDigits cs).map fun r => (some r.1, r.2)
  | cs => .ok (none, cs)

def scanSign : List Char → Bool × List Char
  | '+' :: cs => (false, cs)
  | '-' :: cs => (true, cs)
  | cs => (false, cs)

def scanExponent : List Char → Except Bool (Option (Bool × List Char) × List Char)
  | c :: cs =>
    if c = 'e' ∨ c = 'E' then
      let s := scanSign cs
      (scanDigits s.2).map fun r => (some (s.1, r.1), r.2)
    else .ok (none, c :: cs)
  | [] => .ok (none, [])

def scanNumeral (negative : Bool) (cs : List Char) : Except Bool (Numeral × List Char) := do
  let w ← scanWhole cs
  let f ← scanFraction w.2
  let e ← scanExponent f.2
  return (⟨negative, w.1, f.1, e.1⟩, e.2)

def scanNumber (negative : Bool) (cs : List Char) : Token × List Char :=
  match scanNumeral negative cs with
  | .ok (n, rest) => (.number n, rest)
  | .error atEnd => (.brokenNumber atEnd, [])

/-- The token that starts with the character `c`. -/
def scanToken (c : Char) (cs : List Char) : Token × List Char :=
  match c with
  | '[' => (.listOpen, cs)
  | ']' => (.listClose, cs)
  | '\x7b' => (.objectOpen, cs)
  | '\x7d' => (.objectClose, cs)
  | ',' => (.comma, cs)
  | ':' => (.colon, cs)
  | '"' => let r := scanQuoted cs; (.text r.1, r.2)
  | 'n' => scanWord .null ['u', 'l', 'l'] cs
  | 't' => scanWord (.bool true) ['r', 'u', 'e'] cs
  | 'f' => scanWord (.bool false) ['a', 'l', 's', 'e'] cs
  | '-' => scanNumber true cs
  | c => if isDigit c then scanNumber false (c :: cs) else (.stray, cs)

theorem length_scanQuoted_le (cs : List Char) : (scanQuoted cs).2.length ≤ cs.length := by
  fun_induction scanQuoted cs <;> simp_all [withPiece] <;> omega

theorem length_scanWord_le (t : Token) (ws cs : List Char) :
    (scanWord t ws cs).2.length ≤ cs.length := by
  fun_induction scanWord t ws cs <;> simp_all
  omega

theorem scanDigits_length {cs : List Char} {r : List Char × List Char}
    (h : scanDigits cs = .ok r) : r.1.length + r.2.length = cs.length := by
  unfold scanDigits at h
  split at h
  · cases h
  · cases h
    rw [← List.length_append, List.takeWhile_append_dropWhile]

theorem scanDigits_ne_nil {cs : List Char} {r : List Char × List Char}
    (h : scanDigits cs = .ok r) : r.1 ≠ [] := by
  unfold scanDigits at h
  split at h
  · cases h
  · cases h
    assumption

theorem scanWhole_length {cs : List Char} {r : List Char × List Char}
    (h : scanWhole cs = .ok r) : r.2.length < cs.length := by
  unfold scanWhole at h
  split at h
  · split at h
    · cases h
      simp
    · cases h
  · have hl := scanDigits_length h
    have hn := List.length_pos_iff.mpr (scanDigits_ne_nil h)
    omega

theorem scanFraction_length {cs : List Char} {r : Option (List Char) × List Char}
    (h : scanFraction cs = .ok r) : r.2.length ≤ cs.length := by
  unfold scanFraction at h
  split at h
  · rename_i cs
    cases hd : scanDigits cs with
    | error => simp [hd, Except.map] at h
    | ok d =>
      have hl := scanDigits_length hd
      simp only [hd, Except.map, Except.ok.injEq] at h
      simp only [← h, List.length_cons]
      omega
  · cases h
    simp

theorem length_scanSign_le (cs : List Char) : (scanSign cs).2.length ≤ cs.length := by
  unfold scanSign
  split <;> simp

theorem scanExponent_length {cs : List Char} {r : Option (Bool × List Char) × List Char}
    (h : scanExponent cs = .ok r) : r.2.length ≤ cs.length := by
  unfold scanExponent at h
  split at h
  · rename_i c cs
    split at h
    · cases hd : scanDigits (scanSign cs).2 with
      | error => simp [hd, Except.map] at h
      | ok d =>
        have hl := scanDigits_length hd
        have hs := length_scanSign_le cs
        simp only [hd, Except.map, Except.ok.injEq] at h
        simp only [← h, List.length_cons]
        omega
    · cases h
      simp
  · cases h
    simp

theorem scanNumeral_length {negative : Bool} {cs : List Char} {r : Numeral × List Char}
    (h : scanNumeral negative cs = .ok r) : r.2.length < cs.length := by
  unfold scanNumeral at h
  cases hw : scanWhole cs with
  | error => simp [hw, bind, Except.bind] at h
  | ok w =>
    cases hf : scanFraction w.2 with
    | error => simp [hw, hf, bind, Except.bind] at h
    | ok f =>
      cases he : scanExponent f.2 with
      | error => simp [hw, hf, he, bind, Except.bind] at h
      | ok e =>
        simp only [hw, hf, he, bind, Except.bind, pure, Except.pure, Except.ok.injEq] at h
        have := scanWhole_length hw
        have := scanFraction_length hf
        have := scanExponent_length he
        simp only [← h]
        omega

theorem length_scanNumber_lt {negative : Bool} {cs : List Char} (h : cs ≠ []) :
    (scanNumber negative cs).2.length < cs.length := by
  unfold scanNumber
  split
  · exact scanNumeral_length ‹_›
  · exact List.length_pos_iff.mpr h

theorem length_scanNumber_le (negative : Bool) (cs : List Char) :
    (scanNumber negative cs).2.length ≤ cs.length := by
  unfold scanNumber
  split
  · exact Nat.le_of_lt (scanNumeral_length ‹_›)
  · simp

theorem length_scanToken_le (c : Char) (cs : List Char) :
    (scanToken c cs).2.length ≤ cs.length := by
  unfold scanToken
  split <;> try simp [length_scanQuoted_le, length_scanWord_le, length_scanNumber_le]
  split
  · exact Nat.le_of_lt_succ (length_scanNumber_lt (by simp))
  · simp

/-- The tokens of a text; white space is dropped. -/
def tokens : List Char → List Token
  | [] => []
  | c :: cs =>
    if isSpace c then tokens cs
    else (scanToken c cs).1 :: tokens (scanToken c cs).2
termination_by cs => cs.length
decreasing_by
  · simp
  · exact Nat.lt_succ_of_le (length_scanToken_le c cs)

@[simp] theorem tokens_nil : tokens [] = [] := by simp [tokens]

theorem tokens_space {c : Char} {cs : List Char} (h : isSpace c) :
    tokens (c :: cs) = tokens cs := by
  rw [tokens, if_pos h]

theorem tokens_cons {c : Char} {cs : List Char} (h : isSpace c = false) :
    tokens (c :: cs) = (scanToken c cs).1 :: tokens (scanToken c cs).2 := by
  rw [tokens, if_neg (by simp [h])]

end Dialogue.Json
