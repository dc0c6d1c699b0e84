import Dialogue.Json.Decode
import Dialogue.Proofs.Grammar

/-!
# The tree of a spelled value

However a value is spelled, the text has a tree without damage whose leaves have the meaning they
should. A number is the only token that needs something behind it to end it.
-/
namespace Dialogue.Json

open Decimal (naturalChars)

/-- A tree without damage and the value it stands for; the members of an object stand in the order
of the text. -/
inductive Means : Node → Value → Prop
  | null : Means .null .null
  | bool (b : Bool) : Means (.bool b) (.bool b)
  | integer {n : Numeral} {i : Integer} (value : n.number? = some (.integer i)) :
      Means (.number n) (.number (.integer i))
  | text {q : Quoted} {s : String} (closed : q.ending = .closed) (read : q.read = .ok s) :
      Means (.text q) (.text s)
  | list (items : List (Node × Value)) (each : ∀ i ∈ items, Means i.1 i.2) :
      Means (.list (items.map (·.1)) .closed) (.list (items.map (·.2)))
  | object (written : List ((Quoted × Node) × (String × Value))) {members : List (String × Value)}
      (keys : ∀ m ∈ written, m.1.1.read = .ok m.2.1) (each : ∀ m ∈ written, Means m.1.2 m.2.2)
      (order : (written.map (·.2)).Perm members) :
      Means (.object (written.map (·.1)) .closed) (.object members)

theorem scanQuoted_plain {c : Char} (printable : 0x20 ≤ c.toNat) (quote : c ≠ '"')
    (backslash : c ≠ '\\') (cs : List Char) :
    scanQuoted (c :: cs) = withPiece (.plain c) (scanQuoted cs) := by
  rw [scanQuoted, if_neg (by omega)] <;> simp_all

theorem scanQuoted_letter {e c : Char} (listed : (e, c) ∈ escapes) (cs : List Char) :
    scanQuoted ('\\' :: e :: cs) = withPiece (.plain c) (scanQuoted cs) := by
  have hletters : ∀ p ∈ escapes, p.1 ≠ 'u' ∧ unescape? p.1 = some p.2 := by decide
  obtain ⟨hu, he⟩ := hletters (e, c) listed
  rw [scanQuoted] <;> simp_all

theorem scanQuoted_unit {a b c d : Char} {n : Nat} (unit : Text.hexQuad? a b c d = some n)
    (cs : List Char) :
    scanQuoted ('\\' :: 'u' :: a :: b :: c :: d :: cs) = withPiece (.unit n) (scanQuoted cs) := by
  rw [scanQuoted, unit]

theorem not_surrogate (c : Char) : isTrailing c.toNat = false ∧ isLeading c.toNat = false := by
  have hvalid : c.toNat < 0xD800 ∨ 0xDFFF < c.toNat ∧ c.toNat < 0x110000 := c.valid
  simp only [isTrailing, isLeading, Bool.and_eq_false_iff, decide_eq_false_iff_not]
  omega

theorem charsOf_unit (ending : Ending) {n : Nat} (trailing : isTrailing n = false)
    (leading : isLeading n = false) (ps : List Piece) :
    charsOf ending (.unit n :: ps) = (charsOf ending ps).map (Char.ofNat n :: ·) := by
  rw [charsOf.eq_def]
  simp only [trailing, leading, Bool.false_eq_true, if_false]

theorem charsOf_pair (ending : Ending) {m n : Nat} (trailing : isTrailing m = false)
    (leading : isLeading m) (second : isTrailing n) (ps : List Piece) :
    charsOf ending (.unit m :: .unit n :: ps) = (charsOf ending ps).map (pairChar m n :: ·) := by
  simp [charsOf, trailing, leading, second]

theorem pairChar_eq {c : Char} {m n : Nat} (point : c.toNat = 0x10000 + 0x400 * m + n) :
    pairChar (0xD800 + m) (0xDC00 + n) = c := by
  have hpoint : (0xD800 + m - 0xD800) * 0x400 + (0xDC00 + n - 0xDC00) + 0x10000 = c.toNat := by
    omega
  rw [pairChar, hpoint, Char.ofNat_toNat]

/-- What the reader makes of a spelled character, whatever stands behind it. -/
theorem SpellsChar.exists_pieces {c : Char} {part : List Char} (h : SpellsChar c part) :
    ∃ ps, (∀ cs, scanQuoted (part ++ cs) =
        (⟨ps ++ (scanQuoted cs).1.pieces, (scanQuoted cs).1.ending⟩, (scanQuoted cs).2)) ∧
      ∀ ending more, charsOf ending (ps ++ more) = (charsOf ending more).map (c :: ·) := by
  cases h with
  | plain printable quote backslash =>
    exact ⟨[.plain c], scanQuoted_plain printable quote backslash, fun _ _ => rfl⟩
  | letter listed => exact ⟨[.plain c], scanQuoted_letter listed, fun _ _ => rfl⟩
  | unit unit =>
    obtain ⟨htrailing, hleading⟩ := not_surrogate c
    refine ⟨[.unit c.toNat], scanQuoted_unit unit, fun ending more => ?_⟩
    have hchars := charsOf_unit ending htrailing hleading more
    rwa [Char.ofNat_toNat] at hchars
  | @pair _ _ _ _ _ b₁ b₂ b₃ b₄ m n hm hn leading trailing point =>
    refine ⟨[.unit (0xD800 + m), .unit (0xDC00 + n)], fun cs => ?_, fun ending more => ?_⟩
    · have hfirst := scanQuoted_unit leading ('\\' :: 'u' :: b₁ :: b₂ :: b₃ :: b₄ :: cs)
      rw [scanQuoted_unit trailing cs] at hfirst
      exact hfirst
    · have hranges : isTrailing (0xD800 + m) = false ∧ isLeading (0xD800 + m) ∧
          isTrailing (0xDC00 + n) := by
        simp only [isTrailing, isLeading, Bool.and_eq_false_iff, Bool.and_eq_true,
          decide_eq_false_iff_not, decide_eq_true_eq]
        omega
      have hchars := charsOf_pair ending hranges.1 hranges.2.1 hranges.2.2 more
      rwa [pairChar_eq point] at hchars

theorem exists_quoted {cs : List Char} {parts : List (List Char)}
    (h : List.Forall₂ SpellsChar cs parts) :
    ∃ ps, charsOf .closed ps = .ok cs ∧
      ∀ rest, scanQuoted (parts.flatten ++ '"' :: rest) = (⟨ps, .closed⟩, rest) := by
  induction h with
  | nil => exact ⟨[], rfl, fun rest => by simp [scanQuoted]⟩
  | @cons c part cs parts hc _ ih =>
    obtain ⟨ps, hps, hscan⟩ := ih
    obtain ⟨qs, hqs, hchars⟩ := hc.exists_pieces
    refine ⟨qs ++ ps, by rw [hchars, hps]; rfl, fun rest => ?_⟩
    rw [List.flatten_cons, List.append_assoc, hqs, hscan]

/-- A spelled text is one token. -/
theorem SpellsText.exists_token {s : String} {cs : List Char} (h : SpellsText s cs) :
    ∃ q : Quoted, q.ending = .closed ∧ q.read = .ok s ∧
      ∀ rest, tokens (cs ++ rest) = .text q :: tokens rest := by
  cases h with
  | quoted each =>
    obtain ⟨ps, hps, hscan⟩ := exists_quoted each
    refine ⟨⟨ps, .closed⟩, rfl, ?_, fun rest => ?_⟩
    · simp only [Quoted.read, hps, Except.map, String.ofList_toList]
    · rw [List.append_assoc, List.cons_append, List.singleton_append, tokens_cons (by decide)]
      simp only [scanToken, hscan]

/-- Nothing follows that could belong to a number. -/
def EndsNumber (rest : List Char) : Prop :=
  ∀ c ∈ rest.head?, isDigit c = false ∧ c ≠ '.' ∧ c ≠ 'e' ∧ c ≠ 'E'

theorem endsNumber_cons {c : Char} (h : isDigit c = false ∧ c ≠ '.' ∧ c ≠ 'e' ∧ c ≠ 'E')
    (cs : List Char) : EndsNumber (c :: cs) := by
  intro d hd
  obtain rfl := Option.some.inj hd
  exact h

theorem takeWhile_of_endsNumber {rest : List Char} (h : EndsNumber rest) :
    rest.takeWhile isDigit = [] := by
  cases rest with
  | nil => rfl
  | cons c cs =>
    have hc := h c rfl
    simp [hc.1]

theorem scanFraction_of_endsNumber {rest : List Char} (h : EndsNumber rest) :
    scanFraction rest = .ok (none, rest) := by
  cases rest with
  | nil => rfl
  | cons c cs =>
    have hc := h c rfl
    rw [scanFraction]
    intro ds hds
    exact hc.2.1 (List.cons.inj hds).1

theorem scanExponent_of_endsNumber {rest : List Char} (h : EndsNumber rest) :
    scanExponent rest = .ok (none, rest) := by
  cases rest with
  | nil => rfl
  | cons c cs =>
    have hc := h c rfl
    rw [scanExponent, if_neg (by simp [hc.2.2])]

theorem digits_naturalChars (n : Nat) : ∀ c ∈ naturalChars n, isDigit c := by
  intro c hc
  exact Text.isDigit_of_mem_toDigits hc

theorem scanDigits_naturalChars (n : Nat) {rest : List Char} (h : EndsNumber rest) :
    scanDigits (naturalChars n ++ rest) = .ok (naturalChars n, rest) := by
  have htake : (naturalChars n ++ rest).takeWhile isDigit = naturalChars n := by
    rw [List.takeWhile_append_of_pos (digits_naturalChars n), takeWhile_of_endsNumber h,
      List.append_nil]
  have hdrop : (naturalChars n ++ rest).dropWhile isDigit = rest := by
    have hboth := List.takeWhile_append_dropWhile (p := isDigit) (l := naturalChars n ++ rest)
    rw [htake] at hboth
    exact List.append_cancel_left hboth
  rw [scanDigits, htake, hdrop]
  cases hn : naturalChars n with
  | nil => exact absurd hn Nat.toDigits_ne_nil
  | cons c cs => rfl

/-- Only zero is written with a zero at the head. -/
theorem head?_naturalChars {n : Nat} (h : (naturalChars n).head? = some '0') : n = 0 := by
  induction n using Nat.strongRecOn with
  | ind n ih =>
    rw [naturalChars, Nat.toDigits_eq_if (by decide)] at h
    split at h
    · next hn =>
      have hdigits : ∀ d < 10, d.digitChar = '0' → d = 0 := by decide
      exact hdigits n hn (Option.some.inj h)
    · next hn =>
      have hhead : (naturalChars (n / 10)).head? = some '0' := by
        rw [List.head?_append_of_ne_nil _ Nat.toDigits_ne_nil] at h
        exact h
      have := ih (n / 10) (by omega) hhead
      omega

theorem scanWhole_naturalChars (n : Nat) {rest : List Char} (h : EndsNumber rest) :
    scanWhole (naturalChars n ++ rest) = .ok (naturalChars n, rest) := by
  by_cases hn : n = 0
  · subst hn
    have hzero : naturalChars 0 = ['0'] := by decide
    simp [hzero, scanWhole, takeWhile_of_endsNumber h]
  · rw [scanWhole, scanDigits_naturalChars n h]
    intro cs hcs
    have hhead : (naturalChars n ++ rest).head? = (naturalChars n).head? :=
      List.head?_append_of_ne_nil _ Nat.toDigits_ne_nil
    rw [hcs] at hhead
    exact hn (head?_naturalChars hhead.symm)

theorem scanNumber_naturalChars (negative : Bool) (n : Nat) {rest : List Char}
    (h : EndsNumber rest) :
    scanNumber negative (naturalChars n ++ rest) =
      (.number ⟨negative, naturalChars n, none, none⟩, rest) := by
  simp only [scanNumber, scanNumeral, scanWhole_naturalChars n h, scanFraction_of_endsNumber h,
    scanExponent_of_endsNumber h, bind, Except.bind, pure, Except.pure]

theorem foldl_digits {cs : List Char} {m n : Nat} (h : Text.appendDigits m cs = some n) :
    cs.foldl (fun n c => 10 * n + Numeral.digitValue c) m = n := by
  induction cs generalizing m with
  | nil => exact Option.some.inj h
  | cons c cs ih =>
    obtain ⟨d, hd, hrest⟩ := Option.bind_eq_some_iff.mp h
    have hvalue : Numeral.digitValue c = d := by simp [Numeral.digitValue, hd]
    rw [List.foldl_cons, hvalue]
    exact ih hrest

theorem digitsValue_naturalChars (n : Nat) : Numeral.digitsValue (naturalChars n) = n :=
  foldl_digits (Text.appendDigits_toDigits n)

theorem isSpace_of_isDigit {c : Char} (h : isDigit c) : isSpace c = false := by
  simp only [isSpace, Bool.or_eq_false_iff, decide_eq_false_iff_not]
  refine ⟨⟨⟨?_, ?_⟩, ?_⟩, ?_⟩ <;> rintro rfl <;> exact absurd h (by decide)

theorem scanToken_of_isDigit {c : Char} (h : isDigit c) (cs : List Char) :
    scanToken c cs = scanNumber false (c :: cs) := by
  unfold scanToken
  split
  case h_12 => rw [if_pos h]
  all_goals exact absurd h (by decide)

/-- A spelled integer is one token, if what follows is no part of a number. -/
theorem Integer.exists_token (i : Integer) {rest : List Char} (h : EndsNumber rest) :
    ∃ n : Numeral, n.number? = some (.integer i) ∧
      tokens (i.chars ++ rest) = .number n :: tokens rest := by
  have hdigits := digitsValue_naturalChars i.val.natAbs
  have hlower := i.lower
  have hupper := i.upper
  by_cases hi : i.val < 0
  · refine ⟨⟨true, naturalChars i.val.natAbs, none, none⟩, ?_, ?_⟩
    · apply Numeral.number?_of_integer?
      have hrange : 0 < i.val.natAbs ∧ i.val.natAbs ≤ 0x8000000000000000 := by omega
      have hval : -(i.val.natAbs : Int) = i.val := by omega
      simp only [Numeral.integer?, hdigits, hrange, hval, Option.isSome_none, Bool.false_eq_true,
        or_self, if_false, if_true, and_self, dite_true]
    · rw [Integer.chars, if_pos hi, List.singleton_append, List.cons_append,
        tokens_cons (by decide)]
      simp only [scanToken, scanNumber_naturalChars true _ h]
  · refine ⟨⟨false, naturalChars i.val.natAbs, none, none⟩, ?_, ?_⟩
    · apply Numeral.number?_of_integer?
      have hrange : i.val.natAbs < 0x10000000000000000 := by omega
      have hval : (i.val.natAbs : Int) = i.val := by omega
      simp only [Numeral.integer?, hdigits, hrange, hval, Option.isSome_none, Bool.false_eq_true,
        or_self, if_false, dite_true]
    · rw [Integer.chars, if_neg hi, List.nil_append]
      have hscan := scanNumber_naturalChars false i.val.natAbs h
      cases hn : naturalChars i.val.natAbs with
      | nil => exact absurd hn Nat.toDigits_ne_nil
      | cons c cs =>
        have hc : isDigit c := digits_naturalChars _ c (hn ▸ List.mem_cons_self)
        rw [hn] at hscan
        rw [List.cons_append, tokens_cons (isSpace_of_isDigit hc), scanToken_of_isDigit hc,
          ← List.cons_append, hscan]

theorem tokens_spaces {bs : List Char} (h : Spaces bs) (cs : List Char) :
    tokens (bs ++ cs) = tokens cs := by
  induction bs with
  | nil => rfl
  | cons b bs ih =>
    rw [List.cons_append, tokens_space (h b List.mem_cons_self)]
    exact ih fun c hc => h c (List.mem_cons_of_mem b hc)

theorem endsNumber_of_spaces {bs : List Char} (h : Spaces bs) {rest : List Char}
    (hrest : EndsNumber rest) : EndsNumber (bs ++ rest) := by
  cases bs with
  | nil => exact hrest
  | cons b bs =>
    have hb := h b List.mem_cons_self
    refine endsNumber_cons ?_ _
    simp only [isSpace, Bool.or_eq_true, decide_eq_true_eq] at hb
    rcases hb with ((rfl | rfl) | rfl) | rfl <;> decide

/-- Wherever the text stands, it is read as a tree that stands for the value. -/
def ReadsAs (v : Value) (cs : List Char) : Prop :=
  ∀ rest, EndsNumber rest → ∃ n t ts, Means n v ∧ tokens (cs ++ rest) = t :: ts ∧
    t ≠ .listClose ∧
      ∀ fs, (Progress.begin fs t).run ts = (Progress.after n fs).run (tokens rest)

namespace Progress

theorem step_listStart {t : Token} (h : t ≠ .listClose) (fs : List Frame) :
    (listStart fs).step t = begin (.list [] :: fs) t := by
  cases t <;> first | rfl | exact absurd rfl h

theorem step_listComma {t : Token} (h : t ≠ .listClose) (before : List Node) (fs : List Frame) :
    (listComma before fs).step t = begin (.list before :: fs) t := by
  cases t <;> first | rfl | exact absurd rfl h

end Progress

/-- The items of a list, up to the bracket that closes it. -/
theorem exists_items {items : List (Value × List Char)} (some : items ≠ [])
    (each : ∀ i ∈ items, ReadsAs i.1 i.2) (rest : List Char) :
    ∃ ns : List (Node × Value), (∀ n ∈ ns, Means n.1 n.2) ∧ ns.map (·.2) = items.map (·.1) ∧
      ∃ t ts, tokens (commaSeparated (items.map (·.2)) ++ ']' :: rest) = t :: ts ∧
        t ≠ .listClose ∧
        ∀ before fs, (Progress.begin (.list before :: fs) t).run ts =
          (Progress.after (.list (before.reverse ++ ns.map (·.1)) .closed) fs).run
            (tokens rest) := by
  induction items with
  | nil => exact absurd rfl some
  | cons i items ih =>
    cases items with
    | nil =>
      obtain ⟨n, t, ts, hn, htokens, ht, hrun⟩ :=
        each i List.mem_cons_self (']' :: rest) (endsNumber_cons (by decide) rest)
      refine ⟨[(n, i.1)], by simpa using hn, rfl, t, ts, htokens, ht, fun before fs => ?_⟩
      rw [hrun, tokens_cons (by decide), Progress.run_cons]
      simp only [scanToken, Progress.step, Frame.add, List.reverse_cons, List.map_cons,
        List.map_nil]
    | cons j items =>
      obtain ⟨ns, hns, hvalues, t', ts', htokens', ht', hrun'⟩ :=
        ih (List.cons_ne_nil _ _) fun k hk => each k (List.mem_cons_of_mem i hk)
      obtain ⟨n, t, ts, hn, htokens, ht, hrun⟩ :=
        each i List.mem_cons_self
          (',' :: (commaSeparated ((j :: items).map (·.2)) ++ ']' :: rest))
          (endsNumber_cons (by decide) _)
      refine ⟨(n, i.1) :: ns, List.forall_mem_cons.mpr ⟨hn, hns⟩, by simp [hvalues], t, ts, ?_, ht,
        fun before fs => ?_⟩
      · simpa [commaSeparated] using htokens
      · rw [hrun, tokens_cons (by decide), Progress.run_cons]
        simp only [scanToken, Progress.step]
        rw [htokens', Progress.run_cons, Progress.step_listComma ht', hrun']
        simp

/-- The key of a member and the colon after it. -/
theorem tokens_key {m : MemberText} {key : String} (h : m.SpellsKey key) :
    ∃ q : Quoted, q.ending = .closed ∧ q.read = .ok key ∧ ∀ rest,
      tokens (m.chars ++ rest) = .text q :: .colon :: tokens (m.value ++ rest) := by
  obtain ⟨q, hclosed, hread, htokens⟩ := h.key.exists_token
  refine ⟨q, hclosed, hread, fun rest => ?_⟩
  simp only [MemberText.chars, List.append_assoc, List.cons_append]
  rw [tokens_spaces h.before, htokens, tokens_spaces h.between, tokens_cons (by decide)]
  rfl

/-- The members of an object, up to the brace that closes it. -/
theorem exists_members {written : List ((String × Value) × MemberText)} (some : written ≠ [])
    (keys : ∀ m ∈ written, m.2.SpellsKey m.1.1)
    (each : ∀ m ∈ written, ReadsAs m.1.2 m.2.value) (rest : List Char) :
    ∃ ns : List ((Quoted × Node) × (String × Value)), (∀ n ∈ ns, n.1.1.read = .ok n.2.1) ∧
      (∀ n ∈ ns, Means n.1.2 n.2.2) ∧ ns.map (·.2) = written.map (·.1) ∧
      ∃ q ts, q.ending = .closed ∧
        tokens (commaSeparated (written.map (·.2.chars)) ++ '\x7d' :: rest) = .text q :: ts ∧
        ∀ before fs, (Progress.colon before q fs).run ts =
          (Progress.after (.object (before.reverse ++ ns.map (·.1)) .closed) fs).run
            (tokens rest) := by
  induction written with
  | nil => exact absurd rfl some
  | cons m written ih =>
    obtain ⟨q, hclosed, hread, hkey⟩ := tokens_key (keys m List.mem_cons_self)
    cases written with
    | nil =>
      obtain ⟨n, t, ts, hn, htokens, ht, hrun⟩ :=
        each m List.mem_cons_self ('\x7d' :: rest) (endsNumber_cons (by decide) rest)
      refine ⟨[((q, n), m.1)], by simpa using hread, by simpa using hn, rfl, q,
        .colon :: t :: ts, hclosed, ?_, fun before fs => ?_⟩
      · rw [← htokens]
        exact hkey _
      · rw [Progress.run_cons, Progress.step, Progress.run_cons, Progress.step, hrun,
          tokens_cons (by decide), Progress.run_cons]
        simp only [scanToken, Progress.step, Frame.add, List.reverse_cons, List.map_cons,
          List.map_nil]
    | cons m' written =>
      obtain ⟨ns, hkeys, hns, hvalues, q', ts', hclosed', htokens', hrun'⟩ :=
        ih (List.cons_ne_nil _ _) (fun k hk => keys k (List.mem_cons_of_mem m hk))
          fun k hk => each k (List.mem_cons_of_mem m hk)
      obtain ⟨n, t, ts, hn, htokens, ht, hrun⟩ :=
        each m List.mem_cons_self
          (',' :: (commaSeparated ((m' :: written).map (·.2.chars)) ++ '\x7d' :: rest))
          (endsNumber_cons (by decide) _)
      refine ⟨((q, n), m.1) :: ns, List.forall_mem_cons.mpr ⟨hread, hkeys⟩,
        List.forall_mem_cons.mpr ⟨hn, hns⟩, by simp [hvalues], q, .colon :: t :: ts, hclosed, ?_,
        fun before fs => ?_⟩
      · rw [← htokens, ← hkey]
        simp [commaSeparated]
      · rw [Progress.run_cons, Progress.step, Progress.run_cons, Progress.step, hrun,
          tokens_cons (by decide), Progress.run_cons]
        simp only [scanToken, Progress.step]
        rw [htokens', Progress.run_cons]
        simp only [Progress.step, Progress.key, hclosed', if_true]
        rw [hrun']
        simp

theorem readsAs_of_token {v : Value} {cs : List Char} {t : Token} {n : Node} (hn : Means n v)
    (ht : t ≠ .listClose) (hbegin : ∀ fs, Progress.begin fs t = .after n fs)
    (htokens : ∀ rest, EndsNumber rest → tokens (cs ++ rest) = t :: tokens rest) :
    ReadsAs v cs := fun rest hrest =>
  ⟨n, t, tokens rest, hn, htokens rest hrest, ht, fun fs => by rw [hbegin]⟩

/-- Every spelling of a value is read as a tree that stands for it. -/
theorem readsAs_of_spells {v : Value} {cs : List Char} (h : Spells v cs) : ReadsAs v cs := by
  induction h with
  | null =>
    refine readsAs_of_token .null (t := .null) nofun (fun _ => rfl) fun rest _ => ?_
    rw [List.cons_append, tokens_cons (by decide)]
    rfl
  | true =>
    refine readsAs_of_token (.bool true) (t := .bool true) nofun (fun _ => rfl) fun rest _ => ?_
    rw [List.cons_append, tokens_cons (by decide)]
    rfl
  | false =>
    refine readsAs_of_token (.bool false) (t := .bool false) nofun (fun _ => rfl) fun rest _ => ?_
    rw [List.cons_append, tokens_cons (by decide)]
    rfl
  | integer i =>
    intro rest hrest
    obtain ⟨n, hn, htokens⟩ := i.exists_token hrest
    exact ⟨.number n, _, _, .integer hn, htokens, nofun, fun fs => rfl⟩
  | text h =>
    obtain ⟨q, hclosed, hread, htokens⟩ := h.exists_token
    refine readsAs_of_token (.text hclosed hread) (t := .text q) nofun (fun fs => ?_)
      fun rest _ => htokens rest
    rw [Progress.begin, if_pos hclosed]
  | emptyList cs h =>
    intro rest _
    refine ⟨.list [] .closed, .listOpen, .listClose :: tokens rest, .list [] nofun, ?_, nofun,
      fun fs => rfl⟩
    rw [List.append_assoc, List.cons_append, tokens_cons (by decide)]
    simp only [scanToken]
    rw [tokens_spaces h, List.singleton_append, tokens_cons (by decide)]
    rfl
  | list items some _ ih =>
    intro rest _
    obtain ⟨ns, hns, hvalues, t, ts, htokens, ht, hrun⟩ := exists_items some ih rest
    refine ⟨.list (ns.map (·.1)) .closed, .listOpen, t :: ts, hvalues ▸ .list ns hns, ?_, nofun,
      fun fs => ?_⟩
    · rw [List.append_assoc, List.cons_append, tokens_cons (by decide)]
      simp only [scanToken, List.singleton_append, htokens]
    · rw [Progress.begin, Progress.run_cons, Progress.step_listStart ht, hrun]
      rfl
  | emptyObject cs h =>
    intro rest _
    refine ⟨.object [] .closed, .objectOpen, .objectClose :: tokens rest,
      .object [] nofun nofun (.refl _), ?_, nofun, fun fs => rfl⟩
    rw [List.append_assoc, List.cons_append, tokens_cons (by decide)]
    simp only [scanToken]
    rw [tokens_spaces h, List.singleton_append, tokens_cons (by decide)]
    rfl
  | object written some keys _ order ih =>
    intro rest _
    obtain ⟨ns, hkeys, hns, hvalues, q, ts, hclosed, htokens, hrun⟩ :=
      exists_members some keys ih rest
    refine ⟨.object (ns.map (·.1)) .closed, .objectOpen, .text q :: ts,
      .object ns hkeys hns (hvalues ▸ order), ?_, nofun, fun fs => ?_⟩
    · rw [List.append_assoc, List.cons_append, tokens_cons (by decide)]
      simp only [scanToken, List.singleton_append, htokens]
    · rw [Progress.begin, Progress.run_cons]
      simp only [Progress.step, Progress.key, hclosed, if_true]
      rw [hrun]
      rfl
  | padded hbefore _ hafter ih =>
    intro rest hrest
    obtain ⟨n, t, ts, hn, htokens, ht, hrun⟩ := ih _ (endsNumber_of_spaces hafter hrest)
    refine ⟨n, t, ts, hn, ?_, ht, fun fs => ?_⟩
    · rw [List.append_assoc, List.append_assoc, tokens_spaces hbefore, htokens]
    · rw [hrun, tokens_spaces hafter]

/-- The document of a spelled value has nothing but the value in it. -/
theorem exists_document_of_spells {v : Value} {cs : List Char} (h : Spells v cs) :
    ∃ n, Means n v ∧ document cs = ⟨n, false⟩ := by
  obtain ⟨n, t, ts, hn, htokens, _, hrun⟩ := readsAs_of_spells h [] nofun
  refine ⟨n, hn, ?_⟩
  rw [List.append_nil] at htokens
  have hroot := hrun []
  rw [tokens_nil, Progress.run_nil] at hroot
  rw [document, htokens, Progress.run_cons, Progress.step, hroot]
  rfl

end Dialogue.Json
