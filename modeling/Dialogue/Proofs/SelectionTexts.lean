import Mathlib.Data.List.DropRight
import Mathlib.Data.List.Forall2
import Mathlib.Data.Nat.Digits.Defs
import Dialogue.Proofs.Reading

/-!
# Texts that stand for a selection

Which texts are read as a selection, and as which one, told from the text alone: a word in any case
or a number in decimal, with white space around it. Everything that can be added to the text written
for a selection is listed, and nothing else is read.
-/
namespace Dialogue

namespace Text

/-- The characters with the property White_Space, one by one. -/
def whiteSpaces : List Char :=
  ['\t', '\n', '\x0b', '\x0c', '\r', ' ', '\u0085', '\u00a0', '\u1680', '\u2000', '\u2001',
    '\u2002', '\u2003', '\u2004', '\u2005', '\u2006', '\u2007', '\u2008', '\u2009', '\u200a',
    '\u2028', '\u2029', '\u202f', '\u205f', '\u3000']

theorem isBlank_iff_mem {c : Char} : isBlank c ↔ c ∈ whiteSpaces := by
  have hranges : ∀ n, inRanges blankRanges n ↔ n ∈ whiteSpaces.map Char.toNat := by
    intro n
    simp [inRanges, blankRanges, whiteSpaces]
    omega
  rw [isBlank, hranges, List.mem_map]
  constructor
  · rintro ⟨d, hd, heq⟩
    exact Char.toNat_inj.mp heq ▸ hd
  · exact fun hc => ⟨c, hc, rfl⟩

/-- White space as it stands around a text. -/
def Blank (cs : List Char) : Prop := ∀ c ∈ cs, c ∈ whiteSpaces

/-- What is left of a text without the white space at either end. -/
structure Trimmed (cs ts : List Char) : Prop where
  around : ∃ before after, Blank before ∧ Blank after ∧ cs = before ++ ts ++ after
  first : ∀ h : ts ≠ [], ts.head h ∉ whiteSpaces
  last : ∀ h : ts ≠ [], ts.getLast h ∉ whiteSpaces

section Strip

variable {α : Type} {p : α → Bool}

theorem strip_eq_rdropWhile (xs : List α) : strip p xs = (xs.dropWhile p).rdropWhile p := rfl

/-- What is stripped off may as well not be there. -/
theorem strip_around {before after : List α} (hbefore : ∀ x ∈ before, p x)
    (hafter : ∀ x ∈ after, p x) (xs : List α) : strip p (before ++ xs ++ after) = strip p xs := by
  have hreverse : ∀ x ∈ after.reverse, p x := fun x hx => hafter x (List.mem_reverse.mp hx)
  rw [strip, strip, List.append_assoc, List.dropWhile_append_of_pos hbefore, List.dropWhile_append]
  split
  · next hxs =>
    rw [List.isEmpty_iff.mp hxs, List.dropWhile_eq_nil_iff.mpr hafter]
  · rw [List.reverse_append, List.dropWhile_append_of_pos hreverse]

theorem strip_of_ends {xs : List α} (first : ∀ h : xs ≠ [], ¬ p (xs.head h))
    (last : ∀ h : xs ≠ [], ¬ p (xs.getLast h)) : strip p xs = xs := by
  have hdrop : xs.dropWhile p = xs := by
    cases xs with
    | nil => rfl
    | cons x xs => exact List.dropWhile_cons_of_neg (first (List.cons_ne_nil x xs))
  rw [strip_eq_rdropWhile, hdrop, List.rdropWhile_eq_self_iff]
  exact last

theorem head_strip (xs : List α) (h : strip p xs ≠ []) : ¬ p ((strip p xs).head h) := by
  have hstart : strip p xs <+: xs.dropWhile p := List.rdropWhile_prefix p (xs.dropWhile p)
  have hdrop : xs.dropWhile p ≠ [] := fun hnil => h (List.prefix_nil.mp (hnil ▸ hstart))
  rw [hstart.head h, List.head_dropWhile_not p hdrop]
  exact Bool.false_ne_true

end Strip

theorem not_isBlank_iff {c : Char} : ¬ isBlank c ↔ c ∉ whiteSpaces := not_congr isBlank_iff_mem

theorem blank_iff {cs : List Char} : Blank cs ↔ ∀ c ∈ cs, isBlank c :=
  forall₂_congr fun _ _ => isBlank_iff_mem.symm

/-- There is one way to trim a text. -/
theorem trimmed_iff {cs ts : List Char} : Trimmed cs ts ↔ ts = strip isBlank cs := by
  constructor
  · rintro ⟨⟨before, after, hbefore, hafter, rfl⟩, first, last⟩
    rw [strip_around (blank_iff.mp hbefore) (blank_iff.mp hafter)]
    exact (strip_of_ends (fun h => not_isBlank_iff.mpr (first h))
      fun h => not_isBlank_iff.mpr (last h)).symm
  · rintro rfl
    refine ⟨⟨cs.takeWhile isBlank, (cs.dropWhile isBlank).rtakeWhile isBlank, ?_, ?_, ?_⟩, ?_, ?_⟩
    · exact blank_iff.mpr fun c hc => List.mem_takeWhile_imp hc
    · exact blank_iff.mpr fun c hc => List.mem_rtakeWhile_imp hc
    · rw [strip_eq_rdropWhile, List.append_assoc, List.rdropWhile_append_rtakeWhile,
        List.takeWhile_append_dropWhile]
    · exact fun h => not_isBlank_iff.mp (head_strip cs h)
    · exact fun h => not_isBlank_iff.mp (List.rdropWhile_last_not _ _ h)

/-- A text without white space is all that is left of it. -/
theorem Trimmed.of_solid {before after ts : List Char} (hbefore : Blank before)
    (hafter : Blank after) (hsolid : ∀ c ∈ ts, c ∉ whiteSpaces) :
    Trimmed (before ++ ts ++ after) ts where
  around := ⟨before, after, hbefore, hafter, rfl⟩
  first h := hsolid _ (List.head_mem h)
  last h := hsolid _ (List.getLast_mem h)

/-- The number that digits stand for, the last one counting ones. -/
def decimal (cs : List Char) : Nat := Nat.ofDigits 10 (cs.reverse.map fun c => c.toNat - '0'.toNat)

/-- One or more ASCII digits that stand for `n`. -/
structure Decimal (cs : List Char) (n : Nat) : Prop where
  nonempty : cs ≠ []
  digits : ∀ c ∈ cs, '0' ≤ c ∧ c ≤ '9'
  value : decimal cs = n

/-- A number after at most one plus sign. -/
def Signed (cs : List Char) (n : Nat) : Prop :=
  ∃ sign digits, (sign = [] ∨ sign = ['+']) ∧ cs = sign ++ digits ∧ Decimal digits n

theorem not_mem_whiteSpaces_of_digit {c : Char} (h : '0' ≤ c ∧ c ≤ '9') : c ∉ whiteSpaces := by
  have hdigit : c.isDigit := by
    rw [Char.isDigit, Bool.and_eq_true, decide_eq_true_eq, decide_eq_true_eq]
    exact h
  rw [← not_isBlank_iff, isBlank_of_isDigit hdigit]
  exact Bool.false_ne_true

theorem Signed.solid {cs : List Char} {n : Nat} (h : Signed cs n) : ∀ c ∈ cs, c ∉ whiteSpaces := by
  obtain ⟨sign, digits, hsign, rfl, hdigits⟩ := h
  refine List.forall_mem_append.mpr ⟨?_, fun c hc =>
    not_mem_whiteSpaces_of_digit (hdigits.digits c hc)⟩
  rcases hsign with rfl | rfl
  · exact List.forall_mem_nil _
  · exact List.forall_mem_singleton.mpr (by decide)

theorem decimal_concat (cs : List Char) (c : Char) :
    decimal (cs ++ [c]) = 10 * decimal cs + (c.toNat - '0'.toNat) := by
  rw [decimal, List.reverse_append, List.reverse_singleton, List.singleton_append, List.map_cons,
    Nat.ofDigits_cons, Nat.add_comm]
  rfl

theorem digit?_eq_some {c : Char} {d : Nat} :
    digit? c = some d ↔ ('0' ≤ c ∧ c ≤ '9') ∧ c.toNat - '0'.toNat = d := by
  rw [digit?, Option.ite_none_right_eq_some, Option.some.injEq]

/-- Digits are read from the left, and their value is that of the last one and those before it. -/
theorem appendDigits_eq_some {cs : List Char} {n : Nat} :
    appendDigits 0 cs = some n ↔ (∀ c ∈ cs, '0' ≤ c ∧ c ≤ '9') ∧ decimal cs = n := by
  induction cs using List.reverseRecOn generalizing n with
  | nil => simp [appendDigits, decimal]
  | append_singleton cs c ih =>
    have hlast : ∀ k, appendDigits k [c] = (digit? c).map (10 * k + ·) := by
      intro k
      cases hd : digit? c <;> simp [appendDigits, hd]
    rw [appendDigits_append, Option.bind_eq_some_iff, decimal_concat, List.forall_mem_append,
      List.forall_mem_singleton]
    constructor
    · rintro ⟨k, hk, hc⟩
      obtain ⟨hcs, rfl⟩ := ih.mp hk
      rw [hlast, Option.map_eq_some_iff] at hc
      obtain ⟨d, hd, rfl⟩ := hc
      obtain ⟨hdigit, rfl⟩ := digit?_eq_some.mp hd
      exact ⟨⟨hcs, hdigit⟩, rfl⟩
    · rintro ⟨⟨hcs, hdigit⟩, rfl⟩
      refine ⟨decimal cs, ih.mpr ⟨hcs, rfl⟩, ?_⟩
      rw [hlast, digit?_eq_some.mpr ⟨hdigit, rfl⟩, Option.map_some]

theorem natural?_eq_some {cs : List Char} {n : Nat} : natural? cs = some n ↔ Decimal cs n := by
  cases cs with
  | nil =>
    rw [natural?_nil]
    exact iff_of_false (by simp) fun h => h.nonempty rfl
  | cons c cs =>
    rw [natural?, appendDigits_eq_some]
    · exact ⟨fun h => ⟨List.cons_ne_nil c cs, h.1, h.2⟩, fun h => ⟨h.digits, h.value⟩⟩
    · exact List.cons_ne_nil c cs

theorem natural?_dropPlus_eq_some {cs : List Char} {n : Nat} :
    natural? (dropPlus cs) = some n ↔ Signed cs n := by
  rw [natural?_eq_some]
  constructor
  · intro h
    unfold dropPlus at h
    split at h
    · next ds => exact ⟨['+'], ds, .inr rfl, rfl, h⟩
    · exact ⟨[], cs, .inl rfl, rfl, h⟩
  · rintro ⟨sign, ds, hsign, rfl, h⟩
    rcases hsign with rfl | rfl
    · have hplus : dropPlus ds = ds := by
        unfold dropPlus
        split
        · next rest =>
          have hdigit := h.digits '+' List.mem_cons_self
          exact absurd hdigit (by decide)
        · rfl
      rwa [List.nil_append, hplus]
    · exact h

theorem index?_eq_some {s : String} {i : UInt64} : index? s = some i ↔ Signed s.toList i.toNat := by
  rw [← natural?_dropPlus_eq_some]
  constructor
  · exact index?_lt
  · intro h
    have hi : i.toNat < UInt64.size := i.toNat_lt
    rw [index?, h, Option.bind_some, if_pos hi, UInt64.ofNat_toNat]

theorem index?_eq_none {s : String} :
    index? s = none ↔ ∀ n, Signed s.toList n → UInt64.size ≤ n := by
  constructor
  · intro h n hn
    by_contra hlt
    have hsome : index? s = some (UInt64.ofNat n) := by
      rw [index?, natural?_dropPlus_eq_some.mpr hn, Option.bind_some, if_pos (by omega)]
    rw [h] at hsome
    cases hsome
  · intro h
    cases hi : index? s with
    | none => rfl
    | some i =>
      have hle := h i.toNat (index?_eq_some.mp hi)
      have hlt : i.toNat < UInt64.size := i.toNat_lt
      omega

theorem digitChar_of_digit {c : Char} (h : '0' ≤ c ∧ c ≤ '9') :
    (c.toNat - '0'.toNat).digitChar = c := by
  have hlower : 48 ≤ c.toNat := h.1
  have hupper : c.toNat ≤ 57 := h.2
  have hzero : '0'.toNat = 48 := rfl
  apply Char.toNat_inj.mp
  rw [Nat.toNat_digitChar_of_lt_ten (by omega)]
  omega

/-- All texts of a number are the shortest one with zeros before it. -/
theorem Decimal.exists_zeros {cs : List Char} {n : Nat} (h : Decimal cs n) :
    ∃ k, cs = List.replicate k '0' ++ Nat.toDigits 10 n := by
  induction cs using List.reverseRecOn generalizing n with
  | nil => exact absurd rfl h.nonempty
  | append_singleton cs c ih =>
    obtain ⟨-, hdigits, rfl⟩ := h
    obtain ⟨hcs, hc⟩ := List.forall_mem_append.mp hdigits
    have hchar := digitChar_of_digit (hc c (List.mem_singleton_self c))
    have hlt : c.toNat - '0'.toNat < 10 := by
      have hupper : c.toNat ≤ 57 := (hc c (List.mem_singleton_self c)).2
      have hzero : '0'.toNat = 48 := rfl
      omega
    have hlast : Nat.toDigits 10 (c.toNat - '0'.toNat) = [c] := by
      rw [Nat.toDigits_of_lt_base hlt, hchar]
    rw [decimal_concat]
    by_cases hnil : cs = []
    · have hempty : decimal [] = 0 := rfl
      rw [hnil, hempty, Nat.mul_zero, Nat.zero_add, hlast]
      exact ⟨0, rfl⟩
    · obtain ⟨k, hk⟩ := ih ⟨hnil, hcs, rfl⟩
      by_cases hzero : decimal cs = 0
      · refine ⟨k + 1, ?_⟩
        rw [hzero, Nat.mul_zero, Nat.zero_add, hlast, hk, hzero]
        simp [List.replicate_succ']
      · refine ⟨k, ?_⟩
        rw [← Nat.toDigits_append_toDigits (by decide) (Nat.pos_of_ne_zero hzero) hlt, hlast,
          ← List.append_assoc, ← hk]

theorem decimal_zeros (k n : Nat) : Decimal (List.replicate k '0' ++ Nat.toDigits 10 n) n := by
  have hzeros : ∀ cs, appendDigits 0 (List.replicate k '0' ++ cs) = appendDigits 0 cs := by
    intro cs
    induction k with
    | zero => rfl
    | succ k ih => exact ih
  obtain ⟨hdigits, hvalue⟩ :=
    appendDigits_eq_some.mp ((hzeros _).trans (appendDigits_toDigits n))
  exact ⟨by simp [Nat.toDigits_ne_nil], hdigits, hvalue⟩

/-- A number without a zero in front is its shortest text. -/
theorem Decimal.eq_toDigits {cs : List Char} {n : Nat} (h : Decimal cs n)
    (hzero : cs.head? = some '0' → cs = ['0']) : cs = Nat.toDigits 10 n := by
  obtain ⟨zeros, hzeros⟩ := h.exists_zeros
  cases zeros with
  | zero => exact hzeros
  | succ zeros =>
    have hsingle : cs = ['0'] := hzero (by rw [hzeros]; rfl)
    have hlength : cs.length = zeros + 1 + (Nat.toDigits 10 n).length := by
      rw [hzeros, List.length_append, List.length_replicate]
    have hpos : 0 < (Nat.toDigits 10 n).length := List.length_pos_iff.mpr Nat.toDigits_ne_nil
    rw [hsingle, List.length_singleton] at hlength
    omega

end Text

namespace Selection

open Text

/-- The word for the main exit, each of its letters small or capital. -/
def AnyCase (cs : List Char) : Prop :=
  List.Forall₂ (· ∈ ·) cs [['m', 'M'], ['a', 'A'], ['i', 'I'], ['n', 'N']]

theorem toNat_ofNat_ascii {n : Nat} (h : n < 128) : (Char.ofNat n).toNat = n := by
  have hall : ∀ n < 128, (Char.ofNat n).toNat = n := by decide
  exact hall n h

/-- A small letter and its capital. -/
def cases (d : Char) : List Char := [d, Char.ofNat (d.toNat - 32)]

theorem lower_eq_iff {c d : Char} (hd : 'a' ≤ d ∧ d ≤ 'z') : lower c = d ↔ c ∈ cases d := by
  have hsmall : 97 ≤ d.toNat ∧ d.toNat ≤ 122 := hd
  have hcapital := toNat_ofNat_ascii (n := d.toNat - 32) (by omega)
  have hrange : ('A' ≤ c ∧ c ≤ 'Z') ↔ 65 ≤ c.toNat ∧ c.toNat ≤ 90 := Iff.rfl
  rw [cases, List.mem_pair, ← Char.toNat_inj, ← Char.toNat_inj (c := c),
    ← Char.toNat_inj (c := c), hcapital]
  unfold lower
  split
  · next hc =>
    rw [hrange] at hc
    rw [toNat_ofNat_ascii (by omega)]
    omega
  · next hc =>
    rw [hrange] at hc
    omega

theorem map_lower_eq_iff {word : List Char} (hword : ∀ d ∈ word, 'a' ≤ d ∧ d ≤ 'z')
    {cs : List Char} : cs.map lower = word ↔ List.Forall₂ (· ∈ ·) cs (word.map cases) := by
  induction word generalizing cs with
  | nil => rw [List.map_eq_nil_iff, List.map_nil, List.forall₂_nil_right_iff]
  | cons d word ih =>
    obtain ⟨hd, hrest⟩ := List.forall_mem_cons.mp hword
    rw [List.map_cons, List.map_eq_cons_iff, List.forall₂_cons_right_iff]
    constructor
    · rintro ⟨c, cs, rfl, hc, hcs⟩
      exact ⟨c, cs, (lower_eq_iff hd).mp hc, (ih hrest).mp hcs, rfl⟩
    · rintro ⟨c, cs, hc, hcs, rfl⟩
      exact ⟨c, cs, rfl, (lower_eq_iff hd).mpr hc, (ih hrest).mpr hcs⟩

theorem anyCase_iff {cs : List Char} : AnyCase cs ↔ cs.map lower = mainWord.toList := by
  have hsmall : ∀ d ∈ mainWord.toList, 'a' ≤ d ∧ d ≤ 'z' := by simp [mainWord]
  have hcases : mainWord.toList.map cases = [['m', 'M'], ['a', 'A'], ['i', 'I'], ['n', 'N']] := by
    decide
  rw [AnyCase, map_lower_eq_iff hsmall, hcases]

/-- The word begins with a letter, a number with a sign or a digit. -/
theorem AnyCase.not_signed {cs : List Char} (h : AnyCase cs) (n : Nat) : ¬ Signed cs n := by
  obtain ⟨c, rest, hc, -, rfl⟩ := List.forall₂_cons_right_iff.mp h
  rintro ⟨sign, digits, hsign, heq, hdigits⟩
  have hmem : c ∈ sign ++ digits := heq ▸ List.mem_cons_self
  have hletter : c ≠ '+' ∧ ¬ c ≤ '9' := by
    rw [List.mem_pair] at hc
    rcases hc with rfl | rfl <;> decide
  rcases List.mem_append.mp hmem with hc | hc
  · rcases hsign with rfl | rfl
    · exact absurd hc List.not_mem_nil
    · exact hletter.1 (List.mem_singleton.mp hc)
  · exact hletter.2 (hdigits.digits c hc).2

theorem AnyCase.solid {cs : List Char} (h : AnyCase cs) : ∀ c ∈ cs, c ∉ whiteSpaces := by
  have hletters : ∀ letters ∈ [['m', 'M'], ['a', 'A'], ['i', 'I'], ['n', 'N']],
      ∀ c ∈ letters, c ∉ whiteSpaces := by
    simp [whiteSpaces]
  intro c hc
  obtain ⟨i, hi, rfl⟩ := List.getElem_of_mem hc
  have hlength := List.Forall₂.length_eq h
  exact hletters _ (List.getElem_mem (hlength ▸ hi)) _ (List.Forall₂.get h hi (hlength ▸ hi))

variable {s : String} {ts : List Char}

theorem parse?_eq_some_main (ht : Trimmed s.toList ts) : parse? s = some .main ↔ AnyCase ts := by
  obtain rfl := trimmed_iff.mp ht
  rw [anyCase_iff, parse?, trim, String.toList_ofList]
  split
  · next h => exact iff_of_true rfl h
  · next h => simp [h]

theorem parse?_eq_some_choice (ht : Trimmed s.toList ts) {i : UInt64} :
    parse? s = some (.choice i) ↔ Signed ts i.toNat := by
  obtain rfl := trimmed_iff.mp ht
  have hindex : index? (trim s) = some i ↔ Signed (strip isBlank s.toList) i.toNat := by
    rw [index?_eq_some, trim, String.toList_ofList]
  rw [parse?]
  split
  · next h =>
    rw [trim, String.toList_ofList, ← anyCase_iff] at h
    exact iff_of_false (by simp) (h.not_signed i.toNat)
  · next h => simp [hindex]

theorem parse?_eq_none (ht : Trimmed s.toList ts) :
    parse? s = none ↔ ¬ AnyCase ts ∧ ∀ n, Signed ts n → UInt64.size ≤ n := by
  obtain rfl := trimmed_iff.mp ht
  have hindex := index?_eq_none (s := trim s)
  rw [trim, String.toList_ofList] at hindex
  rw [anyCase_iff, parse?, trim, String.toList_ofList]
  split
  · next h => simp [h]
  · next h => simp [h, hindex]

/-- The texts that come of the one written for a selection by capitals, leading zeros, a plus sign
and white space around it. -/
inductive Spelling : Selection → List Char → Prop
  | main {before word after : List Char} (hbefore : Blank before) (hword : AnyCase word)
      (hafter : Blank after) : Spelling .main (before ++ word ++ after)
  | choice {before sign after : List Char} (i : UInt64) (zeros : Nat) (hbefore : Blank before)
      (hsign : sign = [] ∨ sign = ['+']) (hafter : Blank after) :
      Spelling (.choice i)
        (before ++ (sign ++ (List.replicate zeros '0' ++ (choice i).render.toList)) ++ after)

/-- The word in small letters, or a number without a zero in front. -/
def Canonical (cs : List Char) : Prop :=
  cs = mainWord.toList ∨
    (cs ≠ [] ∧ (∀ c ∈ cs, '0' ≤ c ∧ c ≤ '9') ∧ (cs.head? = some '0' → cs = ['0']))

theorem toList_render_choice (i : UInt64) :
    (choice i).render.toList = Nat.toDigits 10 i.toNat := by
  simp [render]

theorem signed_zeros {sign : List Char} (hsign : sign = [] ∨ sign = ['+']) (zeros : Nat)
    (i : UInt64) :
    Signed (sign ++ (List.replicate zeros '0' ++ (choice i).render.toList)) i.toNat := by
  rw [toList_render_choice]
  exact ⟨sign, _, hsign, rfl, decimal_zeros zeros i.toNat⟩

/-- What is read as a selection is what can be made of its text, and nothing else. -/
theorem parse?_eq_some_iff {x : Selection} : parse? s = some x ↔ Spelling x s.toList := by
  constructor
  · intro h
    have ht : Trimmed s.toList (strip isBlank s.toList) := trimmed_iff.mpr rfl
    obtain ⟨before, after, hbefore, hafter, heq⟩ := ht.around
    rw [heq]
    cases x with
    | main => exact .main hbefore ((parse?_eq_some_main ht).mp h) hafter
    | choice i =>
      obtain ⟨sign, digits, hsign, hsplit, hdigits⟩ := (parse?_eq_some_choice ht).mp h
      obtain ⟨zeros, hzeros⟩ := hdigits.exists_zeros
      rw [hsplit, hzeros, ← toList_render_choice]
      exact .choice i zeros hbefore hsign hafter
  · generalize hs : s.toList = cs
    rintro (⟨hbefore, hword, hafter⟩ | ⟨i, zeros, hbefore, hsign, hafter⟩)
    · have ht := Trimmed.of_solid hbefore hafter hword.solid
      rw [← hs] at ht
      exact (parse?_eq_some_main ht).mpr hword
    · have hsigned := signed_zeros hsign zeros i
      have ht := Trimmed.of_solid hbefore hafter hsigned.solid
      rw [← hs] at ht
      exact (parse?_eq_some_choice ht).mpr hsigned

theorem canonical_render (x : Selection) : Canonical x.render.toList := by
  cases x with
  | main => exact .inl rfl
  | choice i =>
    have hdigits := decimal_zeros 0 i.toNat
    rw [List.replicate_zero, List.nil_append] at hdigits
    rw [toList_render_choice]
    refine .inr ⟨hdigits.nonempty, hdigits.digits, fun hhead => ?_⟩
    rw [Json.head?_naturalChars hhead]
    rfl

/-- Of all the texts of a selection the one that is written is the canonical one. -/
theorem canonical_spelling_iff {x : Selection} {cs : List Char} :
    Canonical cs ∧ Spelling x cs ↔ cs = x.render.toList := by
  have hread : parse? (String.ofList cs) = some x ↔ Spelling x cs := by
    rw [parse?_eq_some_iff, String.toList_ofList]
  constructor
  · rintro ⟨hcanonical, hspelling⟩
    rcases hcanonical with rfl | ⟨hsome, hdigits, hzero⟩
    · have hmain := parse?_render .main
      rw [← hread, String.ofList_toList] at hspelling
      cases hspelling.symm.trans hmain
      rfl
    · have hdecimal : Decimal cs (decimal cs) := ⟨hsome, hdigits, rfl⟩
      have hsigned : Signed cs (decimal cs) := ⟨[], cs, .inl rfl, rfl, hdecimal⟩
      have ht : Trimmed (String.ofList cs).toList cs := by
        have hnone : Blank [] := List.forall_mem_nil _
        have hbare := Trimmed.of_solid hnone hnone hsigned.solid
        rw [List.nil_append, List.append_nil] at hbare
        rwa [String.toList_ofList]
      cases x with
      | main =>
        have hword := (parse?_eq_some_main ht).mp (hread.mpr hspelling)
        exact absurd hsigned (hword.not_signed _)
      | choice i =>
        have hchoice := (parse?_eq_some_choice ht).mp (hread.mpr hspelling)
        have hboth := (natural?_dropPlus_eq_some.mpr hsigned).symm.trans
          (natural?_dropPlus_eq_some.mpr hchoice)
        have hvalue : decimal cs = i.toNat := Option.some.inj hboth
        rw [toList_render_choice, ← hvalue]
        exact hdecimal.eq_toDigits hzero
  · rintro rfl
    refine ⟨canonical_render x, hread.mp ?_⟩
    rw [String.ofList_toList, parse?_render]

/-- A text is read as the main exit or a choice exactly if it is made of the one text written for
it, and a message quotes any other. -/
theorem text_read_exactly (s : String) :
    ∃ t : String, (∀ ts, Trimmed s.toList ts ↔ ts = t.toList) ∧
      (parse? s = some .main ↔ AnyCase t.toList) ∧
      (∀ i : UInt64, parse? s = some (.choice i) ↔ Signed t.toList i.toNat) ∧
      (parse? s = none ↔ ¬ AnyCase t.toList ∧ ∀ n, Signed t.toList n → UInt64.size ≤ n) ∧
      invalidMessage s =
        "Invalid selection \"" ++ t ++ "\", expected \"main\" or an option index." ∧
      (∀ x, parse? s = some x ↔ Spelling x s.toList) ∧
      (∀ x, parse? s = some x → ∀ cs, Canonical cs ∧ Spelling x cs ↔ cs = x.render.toList) ∧
      ∀ x y, Spelling x s.toList → Spelling y s.toList → x = y := by
  have ht : Trimmed s.toList (trim s).toList := by
    rw [trim, String.toList_ofList]
    exact trimmed_iff.mpr rfl
  refine ⟨trim s, fun ts => ?_, parse?_eq_some_main ht, fun i => parse?_eq_some_choice ht,
    parse?_eq_none ht, rfl, fun x => parse?_eq_some_iff, fun x _ cs => canonical_spelling_iff,
    fun x y hx hy => ?_⟩
  · rw [trim, String.toList_ofList]
    exact trimmed_iff
  · exact Option.some.inj ((parse?_eq_some_iff.mpr hx).symm.trans (parse?_eq_some_iff.mpr hy))

/-- The greatest index is read with any number of zeros in front, and no greater number is. -/
example : parse? " +0018446744073709551615" = some (.choice (UInt64.ofNat (UInt64.size - 1))) ∧
    parse? " +0018446744073709551616" = none := by decide +kernel

end Selection
end Dialogue
