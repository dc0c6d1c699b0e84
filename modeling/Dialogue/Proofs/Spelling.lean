import Dialogue.CommandLine.Arguments
import Dialogue.Json.Token
import Dialogue.Json.Value
import Dialogue.Selection

/-!
# Spelling and reading

An index, a selection and a quoted text are read back as they were written, whatever stands behind
them. So two of them that are written alike are the same.
-/
namespace Dialogue

namespace Text

theorem isBlank_of_isDigit {c : Char} (h : c.isDigit) : isBlank c = false := by
  have hrange : ∀ n < 58, 48 ≤ n → inRanges blankRanges n = false := by decide
  simp only [Char.isDigit, Bool.and_eq_true, decide_eq_true_eq] at h
  have hlower : 48 ≤ c.toNat := h.1
  have hupper : c.toNat ≤ 57 := h.2
  exact hrange c.toNat (by omega) hlower

theorem digit?_digitChar {d : Nat} (h : d < 10) : digit? d.digitChar = some d := by
  have hall : ∀ d < 10, digit? d.digitChar = some d := by decide
  exact hall d h

theorem isDigit_of_mem_toDigits {n : Nat} {c : Char} (h : c ∈ Nat.toDigits 10 n) : c.isDigit :=
  Nat.isDigit_of_mem_toDigits (by decide) (Nat.le_refl _) h

/-- The last digit is read last. -/
theorem appendDigits_toDigits (n : Nat) : appendDigits 0 (Nat.toDigits 10 n) = some n := by
  induction n using Nat.strongRecOn with
  | ind n ih =>
    rw [Nat.toDigits_eq_if (by decide)]
    split
    · next h => simp [appendDigits, digit?_digitChar h]
    · next h =>
      have hlast : digit? (n % 10).digitChar = some (n % 10) :=
        digit?_digitChar (Nat.mod_lt _ (by decide))
      rw [appendDigits_append, ih (n / 10) (by omega)]
      simp only [Option.bind_some, appendDigits, hlast, Option.some.injEq]
      omega

theorem natural?_toDigits (n : Nat) : natural? (Nat.toDigits 10 n) = some n := by
  rw [← appendDigits_toDigits n]
  cases h : Nat.toDigits 10 n with
  | nil => exact absurd h Nat.toDigits_ne_nil
  | cons c cs => rfl

theorem dropPlus_toDigits (n : Nat) : dropPlus (Nat.toDigits 10 n) = Nat.toDigits 10 n := by
  unfold dropPlus
  split
  · next cs h =>
    have hmem : '+' ∈ Nat.toDigits 10 n := by
      rw [h]
      exact List.mem_cons_self
    have hplus := isDigit_of_mem_toDigits hmem
    cases hplus
  · rfl

theorem index?_toString (i : UInt64) : index? (toString i.toNat) = some i := by
  have hi : i.toNat < UInt64.size := i.toNat_lt
  simp [index?, dropPlus_toDigits, natural?_toDigits, hi]

theorem trim_of_forall_not_blank {s : String} (h : ∀ c ∈ s.toList, isBlank c = false) :
    trim s = s := by
  have hall : s.toList.all (!isBlank ·) := by simpa using h
  rw [trim, strip_eq_self hall, String.ofList_toList]

/-- Digits before a space are read to the last. -/
theorem eq_of_toDigits_space {m n : Nat} {xs ys : List Char}
    (h : Nat.toDigits 10 m ++ ' ' :: xs = Nat.toDigits 10 n ++ ' ' :: ys) : m = n := by
  have hdigits : ∀ (k : Nat) (zs : List Char),
      (Nat.toDigits 10 k ++ ' ' :: zs).takeWhile Char.isDigit = Nat.toDigits 10 k := by
    intro k zs
    rw [List.takeWhile_append_of_pos fun c hc => isDigit_of_mem_toDigits hc]
    simp
  have hm := congrArg (List.takeWhile Char.isDigit) h
  rw [hdigits, hdigits] at hm
  exact Option.some.inj (by rw [← natural?_toDigits m, hm, natural?_toDigits])

end Text

theorem Selection.lower_of_isDigit {c : Char} (h : c.isDigit) : lower c = c := by
  simp only [Char.isDigit, Bool.and_eq_true, decide_eq_true_eq] at h
  have hupper : c.val ≤ 57 := h.2
  have hletter : ¬ 'A' ≤ c := by
    intro hA
    have hA' : 65 ≤ c.val := hA
    exact absurd (UInt32.le_trans hA' hupper) (by decide)
  simp [lower, hletter]

/-- A selection that is written down is read back. -/
theorem Selection.parse?_render (s : Selection) : parse? s.render = some s := by
  cases s with
  | main => decide
  | choice i =>
    have hdigits : (toString i.toNat).toList = Nat.toDigits 10 i.toNat := by simp
    have htrim : Text.trim (toString i.toNat) = toString i.toNat := by
      refine Text.trim_of_forall_not_blank fun c hc => ?_
      rw [hdigits] at hc
      exact Text.isBlank_of_isDigit (Text.isDigit_of_mem_toDigits hc)
    have hword : (toString i.toNat).toList.map lower ≠ mainWord.toList := by
      intro h
      have hm : 'm' ∈ (toString i.toNat).toList.map lower := by
        rw [h]
        decide
      obtain ⟨c, hc, hlower⟩ := List.mem_map.mp hm
      have hdigit := Text.isDigit_of_mem_toDigits (hdigits ▸ hc)
      rw [lower_of_isDigit hdigit] at hlower
      rw [hlower] at hdigit
      cases hdigit
    simp only [parse?, render, htrim, hword, if_false, Text.index?_toString, Option.map_some]

namespace Json

/-- What the reader makes of a character as it is written in a quoted text. -/
def written (c : Char) : Piece :=
  if c.toNat < 0x20 ∧ c ∉ ['\x08', '\x0c', '\n', '\r', '\t'] then .unit c.toNat else .plain c

theorem written_injective {c d : Char} (h : written c = written d) : c = d := by
  unfold written at h
  split at h <;> split at h
  · exact Char.ext (UInt32.toNat_inj.mp (Piece.unit.inj h))
  · cases h
  · cases h
  · exact Piece.plain.inj h

theorem scanQuoted_escapedChar (c : Char) (cs : List Char) :
    scanQuoted (escapedChar c ++ cs) = withPiece (written c) (scanQuoted cs) := by
  unfold escapedChar
  repeat' split
  case isFalse.isFalse.isFalse.isFalse.isFalse.isFalse.isFalse.isTrue h =>
    have hquad := Text.hexQuad?_hexDigit (a := 0) (b := 0) (c := c.toNat / 16) (d := c.toNat % 16)
      (by decide) (by decide) (by omega) (by omega)
    have hvalue : ((0 * 16 + 0) * 16 + c.toNat / 16) * 16 + c.toNat % 16 = c.toNat := by omega
    rw [hvalue] at hquad
    have hunit : written c = .unit c.toNat := if_pos (by simp [*])
    have hzero : Text.hexDigit 0 = '0' := rfl
    rw [hzero] at hquad
    simp only [hunit, List.cons_append, List.nil_append, scanQuoted, hquad]
  case isFalse.isFalse.isFalse.isFalse.isFalse.isFalse.isFalse.isFalse h =>
    have hplain : written c = .plain c := if_neg (by simp [h])
    rw [hplain, List.singleton_append, scanQuoted, if_neg h] <;> simp_all
  all_goals
    subst c
    simp [scanQuoted, unescape?, written]

/-- The pieces of a quoted text are its characters, and what follows it is left over. -/
theorem scanQuoted_flatMap_escapedChar (cs rest : List Char) :
    scanQuoted (cs.flatMap escapedChar ++ '"' :: rest) = (⟨cs.map written, .closed⟩, rest) := by
  induction cs with
  | nil => simp [scanQuoted]
  | cons c cs ih =>
    rw [List.flatMap_cons, List.append_assoc, scanQuoted_escapedChar, ih]
    rfl

theorem textChars_append_inj {s t : String} {xs ys : List Char}
    (h : textChars s ++ xs = textChars t ++ ys) : s = t ∧ xs = ys := by
  simp only [textChars, List.cons_append, List.append_assoc, List.nil_append] at h
  have hscan := congrArg scanQuoted (List.cons.inj h).2
  simp only [scanQuoted_flatMap_escapedChar, Prod.mk.injEq, Quoted.mk.injEq, and_true] at hscan
  have hchars : s.toList = t.toList :=
    List.map_inj_right (fun _ _ => written_injective) |>.mp hscan.1
  exact ⟨String.toList_inj.mp hchars, hscan.2⟩

theorem textJson_injective {s t : String} (h : textJson s = textJson t) : s = t := by
  have hchars : textChars s ++ [] = textChars t ++ [] := by
    rw [String.ofList_injective h]
  exact (textChars_append_inj hchars).1

end Json

namespace CommandLine

/-- The arguments that ask for a run of a script with some selections. -/
def runArguments (script : String) (selections : List Selection) : List String :=
  "run" :: ("--conversation=" ++ script) :: selections.flatMap fun s => ["--select", s.render]

theorem option?_equals (script : String) :
    option? ("--conversation=" ++ script) = some ("conversation", some script) := by
  simp [option?]

theorem isValue_render (s : Selection) : isValue s.render := by
  cases s with
  | main => decide
  | choice i =>
    have hhead : (Nat.toDigits 10 i.toNat).head? ≠ some '-' := by
      intro h
      have hdigit : '-'.isDigit := Text.isDigit_of_mem_toDigits (List.mem_of_mem_head? h)
      cases hdigit
    simp [isValue, Selection.render, hhead]

theorem options_option {mode : Mode} {o : Options} {arg name value : String}
    (h : option? arg = some (name, some value)) (rest : List String) :
    options mode o (arg :: rest) = (o.set mode name value).bind (options mode · rest) := by
  cases rest with
  | nil =>
    have hne : arg ≠ "--" := by
      rintro rfl
      simp [option?] at h
    simp [options, h]
  | cons next rest => simp only [options, h]

theorem options_select (o : Options) (s : Selection) (rest : List String) :
    options .run o ("--select" :: s.render :: rest) =
      options .run { o with selections := o.selections ++ [s] } rest := by
  have hoption : option? "--select" = some ("select", none) := by decide
  have hset : o.set .run "select" s.render = some { o with selections := o.selections ++ [s] } := by
    simp [Options.set, Selection.parse?_render]
  simp only [options, hoption, isValue_render, if_true, hset, Option.bind_some]

theorem options_selections (o : Options) (selections : List Selection) :
    options .run o (selections.flatMap fun s => ["--select", s.render]) =
      some { o with selections := o.selections ++ selections } := by
  induction selections generalizing o with
  | nil => simp [options]
  | cons s rest ih =>
    rw [List.flatMap_cons, List.cons_append, List.singleton_append, options_select, ih]
    simp

/-- Every path and every list of selections can be asked for. -/
theorem command?_runArguments (script : String) (selections : List Selection) :
    command? (runArguments script selections) = some (.run script selections) := by
  have hrun : option? "run" = none := by decide
  have hset : ({} : Options).set .run "conversation" script = some { script := some script } := by
    simp [Options.set, once]
  simp only [command?, runArguments, hrun, commandFrom, mode?, if_true, Option.bind_some]
  rw [options_option (option?_equals script), hset, Option.bind_some, options_selections]
  rfl

end CommandLine

end Dialogue
