import Dialogue.Proofs.MemberOrder

/-!
# Texts put together

The text of a value that can stand alone is read in the same way inside an object: its tokens end
where it ends, and what the containers around it hold does not matter to it. So the tree of an
object is put together from the trees of its members, whatever their values.
-/
namespace Dialogue.Json

/-- A token that does not break off. -/
def Token.complete : Token → Bool
  | .text q => q.ending = .closed
  | .brokenWord _ => false
  | .brokenNumber _ => false
  | _ => true

theorem missingUnit_ne_closed (cs : List Char) : missingUnit cs ≠ .closed := by
  unfold missingUnit
  split <;> simp

theorem scanQuoted_append {cs : List Char} (h : (scanQuoted cs).1.ending = .closed)
    (rest : List Char) : scanQuoted (cs ++ rest) = ((scanQuoted cs).1, (scanQuoted cs).2 ++ rest) := by
  fun_induction scanQuoted cs with
  | case1 => cases h
  | case2 cs => simp [scanQuoted]
  | case3 => cases h
  | case4 a b c d cs n hn ih =>
    simp only [List.cons_append, scanQuoted_unit hn, ih h, withPiece]
  | case5 => exact absurd h (missingUnit_ne_closed _)
  | case6 => exact absurd h (missingUnit_ne_closed _)
  | case7 e cs _ hletter c hc ih =>
    rw [List.cons_append, List.cons_append, scanQuoted, hc]
    · simp only [ih h, withPiece]
    · exact fun _ _ _ _ _ he => absurd he hletter
    · exact hletter
  | case8 => cases h
  | case9 => cases h
  | case10 c cs hquote hend hquad hunit hletter hprintable ih =>
    have hbackslash : c ≠ '\\' := by
      rintro rfl
      cases cs with
      | nil => exact hend rfl rfl
      | cons e cs => exact hletter e cs rfl rfl
    rw [List.cons_append, scanQuoted_plain (by omega) hquote hbackslash, ih h]
    rfl

theorem scanWord_append {token : Token} {ws cs : List Char}
    (h : (scanWord token ws cs).1.complete) (rest : List Char) :
    scanWord token ws (cs ++ rest) =
      ((scanWord token ws cs).1, (scanWord token ws cs).2 ++ rest) := by
  fun_induction scanWord token ws cs with
  | case1 cs => rw [scanWord]
  | case2 => cases h
  | case3 w ws cs ih => rw [List.cons_append, scanWord, if_pos rfl, ih h]
  | case4 => cases h

theorem scanSign_append {cs : List Char} {r : List Char × List Char}
    (h : scanDigits (scanSign cs).2 = .ok r)
    (rest : List Char) :
    scanSign (cs ++ rest) = ((scanSign cs).1, (scanSign cs).2 ++ rest) := by
  cases cs with
  | nil => cases h
  | cons c cs =>
    rw [List.cons_append]
    unfold scanSign
    split <;> simp_all

section Numbers

variable {rest : List Char} (hrest : EndsNumber rest)
include hrest

theorem takeWhile_append_of_endsNumber (cs : List Char) :
    (cs ++ rest).takeWhile isDigit = cs.takeWhile isDigit ∧
      (cs ++ rest).dropWhile isDigit = cs.dropWhile isDigit ++ rest := by
  induction cs with
  | nil =>
    have htake := takeWhile_of_endsNumber hrest
    have hboth := List.takeWhile_append_dropWhile (p := isDigit) (l := rest)
    rw [htake] at hboth
    exact ⟨htake, hboth⟩
  | cons c cs ih =>
    by_cases hc : isDigit c
    · simp [hc, ih]
    · simp [hc]

theorem scanDigits_append {cs : List Char} {r : List Char × List Char}
    (h : scanDigits cs = .ok r) : scanDigits (cs ++ rest) = .ok (r.1, r.2 ++ rest) := by
  obtain ⟨htake, hdrop⟩ := takeWhile_append_of_endsNumber hrest cs
  unfold scanDigits at h ⊢
  rw [htake, hdrop]
  cases hdigits : cs.takeWhile isDigit with
  | nil =>
    rw [hdigits] at h
    cases h
  | cons d ds =>
    rw [hdigits] at h
    obtain rfl := Except.ok.inj h
    rfl

theorem scanWhole_append {cs : List Char} {r : List Char × List Char}
    (h : scanWhole cs = .ok r) : scanWhole (cs ++ rest) = .ok (r.1, r.2 ++ rest) := by
  unfold scanWhole at h
  split at h
  · next cs =>
    split at h
    · next hnone =>
      obtain rfl := Except.ok.inj h
      rw [List.cons_append, scanWhole, (takeWhile_append_of_endsNumber hrest cs).1, if_pos hnone]
    · cases h
  · next hzero =>
    rw [scanWhole, scanDigits_append hrest h]
    intro ds hds
    cases cs with
    | nil => cases h
    | cons c cs => exact hzero cs (by rw [(List.cons.inj hds).1])

theorem scanFraction_append {cs : List Char} {r : Option (List Char) × List Char}
    (h : scanFraction cs = .ok r) : scanFraction (cs ++ rest) = .ok (r.1, r.2 ++ rest) := by
  unfold scanFraction at h
  split at h
  · next cs =>
    obtain ⟨d, hd, rfl⟩ := map_eq_ok.mp h
    rw [List.cons_append, scanFraction, scanDigits_append hrest hd]
    rfl
  · next hpoint =>
    obtain rfl := Except.ok.inj h
    cases cs with
    | nil => exact scanFraction_of_endsNumber hrest
    | cons c cs =>
      rw [scanFraction]
      intro ds hds
      exact hpoint cs (by rw [(List.cons.inj hds).1])

theorem scanExponent_append {cs : List Char} {r : Option (Bool × List Char) × List Char}
    (h : scanExponent cs = .ok r) : scanExponent (cs ++ rest) = .ok (r.1, r.2 ++ rest) := by
  cases cs with
  | nil =>
    obtain rfl := Except.ok.inj h
    exact scanExponent_of_endsNumber hrest
  | cons c cs =>
    rw [scanExponent] at h
    rw [List.cons_append, scanExponent]
    split at h
    · next he =>
      obtain ⟨d, hd, rfl⟩ := map_eq_ok.mp h
      simp only [if_pos he, scanSign_append hd, scanDigits_append hrest hd, Except.map]
    · next he =>
      obtain rfl := Except.ok.inj h
      rw [if_neg he]
      rfl

theorem scanNumber_append {negative : Bool} {cs : List Char}
    (h : (scanNumber negative cs).1.complete) : scanNumber negative (cs ++ rest) =
      ((scanNumber negative cs).1, (scanNumber negative cs).2 ++ rest) := by
  cases hn : scanNumeral negative cs with
  | error atEnd => simp [scanNumber, hn, Token.complete] at h
  | ok r =>
    have happend : scanNumeral negative (cs ++ rest) = .ok (r.1, r.2 ++ rest) := by
      obtain ⟨w, hw, hr⟩ := bind_eq_ok.mp hn
      obtain ⟨f, hf, hr⟩ := bind_eq_ok.mp hr
      obtain ⟨e, he, hr⟩ := bind_eq_ok.mp hr
      obtain rfl := Except.ok.inj hr
      exact bind_eq_ok.mpr ⟨_, scanWhole_append hrest hw, bind_eq_ok.mpr
        ⟨_, scanFraction_append hrest hf, bind_eq_ok.mpr ⟨_, scanExponent_append hrest he, rfl⟩⟩⟩
    simp only [scanNumber, hn, happend]

theorem scanToken_append {c : Char} {cs : List Char} (h : (scanToken c cs).1.complete) :
    scanToken c (cs ++ rest) = ((scanToken c cs).1, (scanToken c cs).2 ++ rest) := by
  unfold scanToken at h ⊢
  split at h
  case h_7 =>
    simp only [Token.complete, decide_eq_true_eq] at h
    simp only [scanQuoted_append h]
  case h_8 | h_9 | h_10 => exact scanWord_append h rest
  case h_11 => exact scanNumber_append hrest h
  case h_12 =>
    split at h
    · next hdigit =>
      simp only [if_pos hdigit]
      exact scanNumber_append hrest h
    · next hdigit => simp only [if_neg hdigit]
  all_goals rfl

/-- A text whose tokens are complete keeps them, whatever text comes after it that is no part of a
number. -/
theorem tokens_append {cs : List Char} (h : ∀ t ∈ tokens cs, t.complete) :
    tokens (cs ++ rest) = tokens cs ++ tokens rest := by
  fun_induction tokens cs with
  | case1 => rfl
  | case2 c cs hspace ih => rw [List.cons_append, tokens_space hspace, ih h]
  | case3 c cs hspace ih =>
    obtain ⟨hfirst, hothers⟩ := List.forall_mem_cons.mp h
    rw [List.cons_append, tokens_cons (by simpa using hspace), scanToken_append hrest hfirst,
      ih hothers, List.cons_append]

end Numbers

/-- A tree that not even a reader who asks for nothing goes through. -/
def Damaged (n : Node) : Prop := skip n ≠ .ok ()

theorem damaged_of_error {n : Node} {fault : Fault} (h : skip n = .error fault) : Damaged n := by
  rw [Damaged, h]
  nofun

theorem check_ne_ok {fault : Option Fault} (h : fault.isSome) : check fault ≠ .ok () := by
  obtain ⟨f, rfl⟩ := Option.isSome_iff_exists.mp h
  nofun

theorem damaged_list {ending : ListEnd} (h : ending.skipFault?.isSome) (items : List Node) :
    Damaged (.list items ending) := by
  intro hskip
  obtain ⟨_, -, hending⟩ := bind_eq_ok.mp hskip
  exact check_ne_ok h hending

theorem damaged_object {ending : ObjectEnd} (h : ending.skipFault?.isSome)
    (members : List (Quoted × Node)) : Damaged (.object members ending) := by
  intro hskip
  obtain ⟨_, -, hending⟩ := bind_eq_ok.mp hskip
  exact check_ne_ok h hending

theorem isSome_fault? {ending : Ending} (h : ending ≠ .closed) : ending.fault?.isSome := by
  cases ending with
  | closed => exact absurd rfl h
  | _ => rfl

theorem damaged_text {q : Quoted} (h : q.ending ≠ .closed) : Damaged (.text q) :=
  check_ne_ok (isSome_fault? h)

theorem damaged_add {ending : ListEnd × ObjectEnd} (hlist : ending.1.skipFault?.isSome)
    (hobject : ending.2.skipFault?.isSome) (n : Node) (f : Frame) : Damaged (f.add n ending) := by
  cases f with
  | list before => exact damaged_list hlist _
  | object before key => exact damaged_object hobject _

theorem damaged_root {n : Node} (h : Damaged n) (fs : List Frame) :
    Damaged (damaged n fs).root := by
  induction fs generalizing n with
  | nil => exact h
  | cons f fs ih =>
    exact ih (n := f.add n (.damagedItem, .damagedMember)) (damaged_add rfl rfl n f)

namespace Progress

def isOpen : Progress → Bool
  | .finished _ => false
  | _ => true

/-- The same progress inside more containers. -/
def within (fs : List Frame) : Progress → Progress
  | .value gs => .value (gs ++ fs)
  | .listStart gs => .listStart (gs ++ fs)
  | .listComma before gs => .listComma before (gs ++ fs)
  | .objectStart gs => .objectStart (gs ++ fs)
  | .objectComma before gs => .objectComma before (gs ++ fs)
  | .colon before q gs => .colon before q (gs ++ fs)
  | .after n gs => .after n (gs ++ fs)
  | .finished d => .finished d

/-- What a token can make of what has been read so far: it starts a value or a key, it takes its
place between them, or the reading is over. -/
inductive Took (s : Progress) (t : Token) : Progress → Prop
  | begun (gs : List Frame) (around : ∀ fs, (s.within fs).step t = begin (gs ++ fs) t) :
      Took s t (begin gs t)
  | keyed {q : Quoted} (is : t = .text q) (before : List (Quoted × Node)) (gs : List Frame)
      (around : ∀ fs, (s.within fs).step t = key before q (gs ++ fs)) : Took s t (key before q gs)
  | passed {s' : Progress} (complete : t.complete) (goesOn : s'.isOpen)
      (around : ∀ fs, (s.within fs).step t = s'.within fs) : Took s t s'
  | stopped {n : Node} (damaged : Damaged n) (gs : List Frame) : Took s t (stop n gs)
  | trailed (n : Node) : Took s t (.finished ⟨n, true⟩)

theorem took_step {s : Progress} (h : s.isOpen) (t : Token) : s.Took t (s.step t) := by
  cases s with
  | value gs => exact .begun gs fun _ => rfl
  | listStart gs =>
    by_cases hclose : t = .listClose
    · subst hclose
      exact .passed rfl rfl fun _ => rfl
    · rw [step_listStart hclose]
      exact .begun _ fun fs => step_listStart hclose (gs ++ fs)
  | listComma before gs =>
    by_cases hclose : t = .listClose
    · subst hclose
      exact .stopped (damaged_list rfl _) gs
    · rw [step_listComma hclose]
      exact .begun _ fun fs => step_listComma hclose before (gs ++ fs)
  | objectStart gs =>
    cases t with
    | text q => exact .keyed rfl [] gs fun _ => rfl
    | objectClose => exact .passed rfl rfl fun _ => rfl
    | _ => exact .stopped (damaged_object rfl _) gs
  | objectComma before gs =>
    cases t with
    | text q => exact .keyed rfl before gs fun _ => rfl
    | _ => exact .stopped (damaged_object rfl _) gs
  | colon before q gs =>
    cases t with
    | colon => exact .passed rfl rfl fun _ => rfl
    | _ => exact .stopped (damaged_object rfl _) gs
  | after n gs =>
    cases gs with
    | nil => exact .trailed n
    | cons f gs =>
      cases f with
      | list before =>
        cases t with
        | comma | listClose => exact .passed rfl rfl fun _ => rfl
        | _ => exact .stopped (damaged_add rfl rfl n _) gs
      | object before q =>
        cases t with
        | comma | objectClose => exact .passed rfl rfl fun _ => rfl
        | _ => exact .stopped (damaged_add rfl rfl n _) gs
  | finished d => cases h

theorem begin_within {gs : List Frame} {t : Token} (h : (begin gs t).isOpen) (fs : List Frame) :
    begin (gs ++ fs) t = (begin gs t).within fs := by
  cases t with
  | text q =>
    by_cases hq : q.ending = .closed
    · simp only [begin, if_pos hq, within]
    · simp [begin, if_neg hq, stop, isOpen] at h
  | null | bool | number | listOpen | objectOpen => rfl
  | _ => cases h

theorem key_within {before : List (Quoted × Node)} {q : Quoted} {gs : List Frame}
    (h : (key before q gs).isOpen) (fs : List Frame) :
    key before q (gs ++ fs) = (key before q gs).within fs := by
  by_cases hq : q.ending = .closed
  · simp only [key, if_pos hq, within]
  · simp [key, if_neg hq, stop, isOpen] at h

theorem isOpen_of_run {s : Progress} {ts : List Token} (h : (s.run ts).isOpen) : s.isOpen := by
  cases s with
  | finished d =>
    rw [run_finished] at h
    exact h
  | _ => rfl

/-- As long as nothing is finished, the containers around do not matter. -/
theorem step_within {s : Progress} {t : Token} (h : (s.step t).isOpen) (fs : List Frame) :
    (s.within fs).step t = (s.step t).within fs := by
  -- Reading that is finished stays so: what is open after the token was open before it.
  have hs : s.isOpen := isOpen_of_run (show (s.run [t]).isOpen from h)
  have htook := took_step hs t
  generalize s.step t = s' at htook h
  cases htook with
  | begun gs around => rw [around, begin_within h]
  | keyed _ before gs around => rw [around, key_within h]
  | passed _ _ around => exact around fs
  | stopped | trailed => cases h

theorem run_within {s : Progress} {ts : List Token} (h : (s.run ts).isOpen) (fs : List Frame) :
    (s.within fs).run ts = (s.run ts).within fs := by
  induction ts generalizing s with
  | nil => rfl
  | cons t ts ih => rw [run_cons, run_cons, step_within (isOpen_of_run h) fs, ih h]

theorem begin_of_broken {t : Token} (h : t.complete = false) (fs : List Frame) :
    (begin fs t).isOpen = false := by
  cases t with
  | text q =>
    have hq : q.ending ≠ .closed := by simpa [Token.complete] using h
    rw [begin, if_neg hq]
    rfl
  | brokenWord | brokenNumber => rfl
  | _ => cases h

theorem key_of_broken {q : Quoted} (h : (Token.text q).complete = false)
    (before : List (Quoted × Node)) (fs : List Frame) : (key before q fs).isOpen = false := by
  have hq : q.ending ≠ .closed := by simpa [Token.complete] using h
  rw [key, if_neg hq]
  rfl

/-- A token that breaks off finishes the reading. -/
theorem step_of_broken {t : Token} (h : t.complete = false) (s : Progress) :
    (s.step t).isOpen = false := by
  cases hs : s.isOpen with
  | false =>
    cases s with
    | finished d => rfl
    | _ => cases hs
  | true =>
    have htook := took_step hs t
    generalize s.step t = s' at htook
    cases htook with
    | begun gs => exact begin_of_broken h gs
    | keyed is before gs => exact key_of_broken (is ▸ h) before gs
    | passed complete => exact absurd (h.symm.trans complete) Bool.false_ne_true
    | stopped | trailed => rfl

theorem complete_of_run {s : Progress} {ts : List Token} (h : (s.run ts).isOpen) :
    ∀ t ∈ ts, t.complete := by
  induction ts generalizing s with
  | nil => exact List.forall_mem_nil _
  | cons t ts ih =>
    refine List.forall_mem_cons.mpr ⟨?_, ih h⟩
    cases hbroken : t.complete with
    | true => rfl
    | false =>
      have hopen := isOpen_of_run (s := s.step t) h
      rw [step_of_broken hbroken s] at hopen
      cases hopen

/-- Reading that is finished has come to something after the value, or to damage. -/
def ShowsDamage : Progress → Prop
  | .finished d => d.trailing = true ∨ Damaged d.root
  | _ => True

theorem showsDamage_of_isOpen {s : Progress} (h : s.isOpen) : s.ShowsDamage := by
  cases s with
  | finished d => cases h
  | _ => trivial

theorem showsDamage_stop {n : Node} (h : Damaged n) (fs : List Frame) : (stop n fs).ShowsDamage :=
  .inr (damaged_root h fs)

theorem showsDamage_begin (fs : List Frame) (t : Token) : (begin fs t).ShowsDamage := by
  cases t with
  | text q =>
    by_cases hq : q.ending = .closed
    · simp only [begin, if_pos hq, ShowsDamage]
    · rw [begin, if_neg hq]
      exact showsDamage_stop (damaged_text hq) fs
  | null | bool | number | listOpen | objectOpen => trivial
  | _ => exact showsDamage_stop (damaged_of_error rfl) fs

theorem showsDamage_key (before : List (Quoted × Node)) (q : Quoted) (fs : List Frame) :
    (key before q fs).ShowsDamage := by
  by_cases hq : q.ending = .closed
  · simp only [key, if_pos hq, ShowsDamage]
  · have hfault : (ObjectEnd.brokenKey q).skipFault?.isSome := isSome_fault? hq
    rw [key, if_neg hq]
    exact showsDamage_stop (damaged_object hfault _) fs

theorem ShowsDamage.step {s : Progress} (h : s.ShowsDamage) (t : Token) :
    (s.step t).ShowsDamage := by
  cases hs : s.isOpen with
  | false =>
    cases s with
    | finished d => exact h
    | _ => cases hs
  | true =>
    have htook := took_step hs t
    generalize s.step t = s' at htook
    cases htook with
    | begun gs => exact showsDamage_begin gs t
    | keyed _ before gs => exact showsDamage_key before _ gs
    | passed _ goesOn => exact showsDamage_of_isOpen goesOn
    | stopped damaged gs => exact showsDamage_stop damaged gs
    | trailed => exact .inl rfl

theorem showsDamage_run {s : Progress} (h : s.ShowsDamage) (ts : List Token) :
    (s.run ts).ShowsDamage := by
  induction ts generalizing s with
  | nil => exact h
  | cons t ts ih => exact ih (h.step t)

/-- Only where a value has been read, and no container is open, does a text end well. -/
theorem ShowsDamage.finish {s : Progress} (h : s.ShowsDamage) :
    (∃ n, s = .after n []) ∨ s.finish.trailing = true ∨ Damaged s.finish.root := by
  cases s with
  | after n fs =>
    cases fs with
    | nil => exact .inl ⟨n, rfl⟩
    | cons f fs => exact .inr (.inr (damaged_root (damaged_add rfl rfl n f) fs))
  | finished d => exact .inr h
  | value fs => exact .inr (.inr (damaged_root (damaged_of_error rfl) fs))
  | listStart fs => exact .inr (.inr (damaged_root (damaged_list rfl _) fs))
  | listComma before fs => exact .inr (.inr (damaged_root (damaged_list rfl _) fs))
  | objectStart fs => exact .inr (.inr (damaged_root (damaged_object rfl _) fs))
  | objectComma before fs => exact .inr (.inr (damaged_root (damaged_object rfl _) fs))
  | colon before q fs => exact .inr (.inr (damaged_root (damaged_object rfl _) fs))

end Progress

/-- Wherever the text stands, it is read as this tree. -/
def Reads (n : Node) (cs : List Char) : Prop :=
  ∀ rest, EndsNumber rest → ∃ t ts, tokens (cs ++ rest) = t :: ts ∧ t ≠ .listClose ∧
    ∀ fs, (Progress.begin fs t).run ts = (Progress.after n fs).run (tokens rest)

/-- A text that holds one value and is not damaged, however large its numbers are and however deep
it is nested. -/
structure Whole (cs : List Char) : Prop where
  alone : (document cs).trailing = false
  sound : skip (document cs).root = .ok ()

theorem Whole.run {cs : List Char} (h : Whole cs) :
    (Progress.value []).run (tokens cs) = .after (document cs).root [] := by
  rcases (Progress.showsDamage_run (s := .value []) trivial (tokens cs)).finish with
    ⟨n, hn⟩ | htrailing | hdamaged
  · rw [document, hn]
    rfl
  · exact absurd (h.alone.symm.trans htrailing) Bool.false_ne_true
  · exact absurd h.sound hdamaged

theorem Whole.reads {cs : List Char} (h : Whole cs) : Reads (document cs).root cs := by
  intro rest hrest
  -- Alone the text is read to its end, so none of its tokens breaks off.
  have hopen : ((Progress.value []).run (tokens cs)).isOpen := by
    rw [h.run]
    rfl
  have htokens := tokens_append hrest (Progress.complete_of_run hopen)
  have hrun (fs : List Frame) :
      (Progress.value fs).run (tokens cs) = .after (document cs).root fs := by
    have hwithin := Progress.run_within hopen fs
    rwa [h.run] at hwithin
  cases hcs : tokens cs with
  | nil =>
    rw [hcs] at hopen hrun
    cases hrun []
  | cons t ts =>
    rw [hcs] at htokens hopen hrun
    refine ⟨t, ts ++ tokens rest, htokens, ?_, fun fs => ?_⟩
    · rintro rfl
      cases Progress.isOpen_of_run (s := .stop .stray []) hopen
    · rw [Progress.run_append, ← hrun fs]
      rfl

theorem whole_of_spells {v : Value} {cs : List Char} (h : Spells v cs) : Whole cs := by
  obtain ⟨n, hn, hdocument⟩ := exists_document_of_spells h
  refine ⟨?_, ?_⟩ <;> rw [hdocument]
  exact skip_of_means hn

namespace MemberText

/-- What a member is read as. -/
def node (m : MemberText) : Quoted × Node :=
  (match tokens m.chars with
    | .text q :: _ => q
    | _ => ⟨[], .endOfText⟩,
    (document m.value).root)

/-- A member with a key that can be read, and any value. -/
structure Sound (m : MemberText) : Prop where
  key : ∃ key, m.SpellsKey key
  value : Whole m.value

theorem key_node {m : MemberText} {key : String} (h : m.SpellsKey key) :
    m.node.1.ending = .closed ∧ m.node.1.read = .ok key ∧
      ∀ rest, tokens (m.chars ++ rest) = .text m.node.1 :: .colon :: tokens (m.value ++ rest) := by
  obtain ⟨q, hclosed, hread, htokens⟩ := tokens_key h
  have hnode : m.node.1 = q := by
    have hchars := htokens []
    rw [List.append_nil] at hchars
    rw [node, hchars]
  rw [hnode]
  exact ⟨hclosed, hread, htokens⟩

theorem spellsKey_compact (m : String × Value) : (compact m).SpellsKey m.1 :=
  ⟨List.forall_mem_nil _, spellsText_textChars m.1, List.forall_mem_nil _⟩

theorem sound_compact {m : String × Value} (exact : m.2.Throughout Value.Exact) :
    (compact m).Sound :=
  ⟨⟨m.1, spellsKey_compact m⟩, whole_of_spells (spells_compactChars exact)⟩

end MemberText

/-- The members of an object, up to the brace that closes it. -/
theorem run_members {members : List MemberText} (some : members ≠ [])
    (sound : ∀ m ∈ members, m.Sound) (rest : List Char) :
    ∃ q ts, q.ending = .closed ∧
      tokens (commaSeparated (members.map (·.chars)) ++ '\x7d' :: rest) = .text q :: ts ∧
      ∀ before fs, (Progress.colon before q fs).run ts =
        (Progress.after (.object (before.reverse ++ members.map (·.node)) .closed) fs).run
          (tokens rest) := by
  induction members with
  | nil => exact absurd rfl some
  | cons m members ih =>
    obtain ⟨⟨⟨key, hkey⟩, hvalue⟩, hmembers⟩ := List.forall_mem_cons.mp sound
    obtain ⟨hclosed, -, htokens⟩ := MemberText.key_node hkey
    cases members with
    | nil =>
      obtain ⟨t, ts, hts, ht, hrun⟩ :=
        hvalue.reads ('\x7d' :: rest) (endsNumber_cons (by decide) rest)
      refine ⟨m.node.1, .colon :: t :: ts, hclosed, ?_, fun before fs => ?_⟩
      · rw [← hts]
        exact htokens _
      · rw [Progress.run_cons, Progress.step, Progress.run_cons, Progress.step, hrun,
          tokens_cons (by decide), Progress.run_cons]
        simp only [scanToken, Progress.step, Frame.add, List.reverse_cons, List.map_cons,
          List.map_nil]
        rfl
    | cons m' members =>
      obtain ⟨q', ts', hclosed', htokens', hrun'⟩ := ih (List.cons_ne_nil _ _) hmembers
      obtain ⟨t, ts, hts, ht, hrun⟩ := hvalue.reads
        (',' :: (commaSeparated ((m' :: members).map (·.chars)) ++ '\x7d' :: rest))
        (endsNumber_cons (by decide) _)
      refine ⟨m.node.1, .colon :: t :: ts, hclosed, ?_, fun before fs => ?_⟩
      · rw [← hts, ← htokens]
        simp [commaSeparated]
      · rw [Progress.run_cons, Progress.step, Progress.run_cons, Progress.step, hrun,
          tokens_cons (by decide), Progress.run_cons]
        simp only [scanToken, Progress.step]
        rw [htokens', Progress.run_cons]
        simp only [Progress.step, Progress.key, hclosed', if_true]
        rw [hrun']
        simp [MemberText.node]

/-- The text of an object, given its members and the white space around it. -/
structure ObjectText where
  before : List Char
  members : List MemberText
  after : List Char

namespace ObjectText

def chars (o : ObjectText) : List Char :=
  o.before ++ '\x7b' :: (commaSeparated (o.members.map (·.chars)) ++ '\x7d' :: o.after)

structure Sound (o : ObjectText) : Prop where
  before : Spaces o.before
  members : ∀ m ∈ o.members, m.Sound
  after : Spaces o.after

/-- The tree of an object holds the trees of its members, and nothing comes after it. -/
theorem Sound.document {o : ObjectText} (h : o.Sound) :
    Json.document o.chars = ⟨.object (o.members.map (·.node)) .closed, false⟩ := by
  have hafter : tokens o.after = [] := by
    have hspaces := tokens_spaces h.after []
    rwa [List.append_nil, tokens_nil] at hspaces
  rw [Json.document, chars, tokens_spaces h.before, tokens_cons (by decide)]
  simp only [scanToken, Progress.run_cons, Progress.step, Progress.begin]
  by_cases hnone : o.members = []
  · rw [hnone, List.map_nil, commaSeparated, List.nil_append, tokens_cons (by decide)]
    simp only [scanToken, hafter]
    rfl
  · obtain ⟨q, ts, hclosed, htokens, hrun⟩ := run_members hnone h.members o.after
    rw [htokens, Progress.run_cons]
    simp only [Progress.step, Progress.key, hclosed, if_true, hrun, hafter]
    rfl

end ObjectText

end Dialogue.Json
