import Mathlib.Data.List.Forall2
import Dialogue.Proofs.Spelling

/-!
# How values are spelled

The texts that stand for a value, whoever writes them: with white space between the tokens, with any
character of a text escaped in any way there is, and with the members of an object in any order.
Integers have one spelling, and no other numbers are spelled. The texts that are written for a value,
compact or over several lines, are two of its spellings.
-/
namespace Dialogue.Json

namespace Value

/-- The values directly inside. -/
def children : Value → List Value
  | .list items => items
  | .object members => members.map (·.2)
  | _ => []

def isContainer : Value → Bool
  | .list _ | .object _ => true
  | _ => false

@[simp] theorem mem_children_list {items : List Value} {w : Value} :
    w ∈ (Value.list items).children ↔ w ∈ items := Iff.rfl

@[simp] theorem mem_children_object {members : List (String × Value)} {w : Value} :
    w ∈ (Value.object members).children ↔ ∃ m ∈ members, m.2 = w := List.mem_map

/-- A value and all that is inside it have a property. -/
inductive Throughout (P : Value → Prop) : Value → Prop
  | intro {v : Value} (here : P v) (below : ∀ w ∈ v.children, Throughout P w) : Throughout P v

/-- At most so many containers stand inside one another. -/
inductive Within : Nat → Value → Prop
  | plain {n : Nat} {v : Value} (h : v.isContainer = false) : Within n v
  | deeper {n : Nat} {v : Value} (below : ∀ w ∈ v.children, Within n w) : Within (n + 1) v

/-- No two members of an object have the same key. -/
def DistinctKeys : Value → Prop
  | .object members => (members.map (·.1)).Nodup
  | _ => True

/-- The members of an object stand in the order of their keys. -/
def SortedKeys : Value → Prop
  | .object members => (members.map (·.1)).Pairwise (· < ·)
  | _ => True

/-- All numbers are integers. -/
def Exact : Value → Prop
  | .number (.real _) => False
  | _ => True

theorem Throughout.holds {P : Value → Prop} {v : Value} (h : v.Throughout P) : P v := by
  cases h with
  | intro here below => exact here

theorem Throughout.child {P : Value → Prop} {v w : Value} (h : v.Throughout P)
    (hw : w ∈ v.children) : w.Throughout P := by
  cases h with
  | intro here below => exact below w hw

theorem Throughout.imp {P Q : Value → Prop} (himp : ∀ v, P v → Q v) {v : Value}
    (h : v.Throughout P) : v.Throughout Q := by
  induction h with
  | intro here _ ih => exact .intro (himp _ here) ih

theorem throughout_of_plain {P : Value → Prop} {v : Value} (h : v.isContainer = false) :
    v.Throughout P ↔ P v := by
  refine ⟨Throughout.holds, fun hv => .intro hv ?_⟩
  cases v with
  | list items => cases h
  | object members => cases h
  | _ => nofun

theorem throughout_list {P : Value → Prop} {items : List Value} :
    (list items).Throughout P ↔ P (.list items) ∧ ∀ v ∈ items, v.Throughout P :=
  ⟨fun h => ⟨h.holds, fun _ hv => h.child hv⟩, fun h => .intro h.1 h.2⟩

theorem throughout_object {P : Value → Prop} {members : List (String × Value)} :
    (object members).Throughout P ↔ P (.object members) ∧ ∀ m ∈ members, m.2.Throughout P :=
  ⟨fun h => ⟨h.holds, fun _ hm => h.child (List.mem_map_of_mem hm)⟩,
    fun h => .intro h.1 (List.forall_mem_map.mpr h.2)⟩

theorem within_list {n : Nat} {items : List Value} (h : ∀ v ∈ items, v.Within n) :
    (list items).Within (n + 1) := .deeper h

theorem within_object {n : Nat} {members : List (String × Value)}
    (h : ∀ m ∈ members, m.2.Within n) :
    (object members).Within (n + 1) := .deeper (List.forall_mem_map.mpr h)

theorem Within.mono {m n : Nat} (hmn : m ≤ n) {v : Value} (h : v.Within m) : v.Within n := by
  induction h generalizing n with
  | plain h => exact .plain h
  | deeper _ ih =>
    obtain ⟨n, rfl⟩ : ∃ k, n = k + 1 := ⟨n - 1, by omega⟩
    exact .deeper fun w hw => ih w hw (by omega)

theorem Within.exists_of_container {n : Nat} {v : Value} (h : v.Within n) (hv : v.isContainer) :
    ∃ k, n = k + 1 ∧ ∀ w ∈ v.children, w.Within k := by
  cases h with
  | plain h => exact absurd hv (by simp [h])
  | deeper below => exact ⟨_, rfl, below⟩

theorem SortedKeys.distinct {v : Value} (h : v.SortedKeys) : v.DistinctKeys := by
  cases v with
  | object members =>
    refine List.Pairwise.imp (fun {a b} hab => ?_) h
    rintro rfl
    exact String.lt_irrefl a hab
  | _ => trivial

end Value

/-- White space. -/
def Spaces (cs : List Char) : Prop := ∀ c ∈ cs, isSpace c

/-- The letters that may follow a backslash, and the characters they stand for. -/
def escapes : List (Char × Char) :=
  [('"', '"'), ('\\', '\\'), ('/', '/'), ('b', '\x08'), ('f', '\x0c'), ('n', '\n'), ('r', '\r'),
    ('t', '\t')]

/-- A character of a text as it is, by a letter, by its code point, or by a pair of surrogates. -/
inductive SpellsChar : Char → List Char → Prop
  | plain {c : Char} (printable : 0x20 ≤ c.toNat) (quote : c ≠ '"') (backslash : c ≠ '\\') :
      SpellsChar c [c]
  | letter {e c : Char} (listed : (e, c) ∈ escapes) : SpellsChar c ['\\', e]
  | unit {c a₁ a₂ a₃ a₄ : Char} (unit : Text.hexQuad? a₁ a₂ a₃ a₄ = some c.toNat) :
      SpellsChar c ['\\', 'u', a₁, a₂, a₃, a₄]
  | pair {c a₁ a₂ a₃ a₄ b₁ b₂ b₃ b₄ : Char} {m n : Nat} (hm : m < 0x400) (hn : n < 0x400)
      (leading : Text.hexQuad? a₁ a₂ a₃ a₄ = some (0xD800 + m))
      (trailing : Text.hexQuad? b₁ b₂ b₃ b₄ = some (0xDC00 + n))
      (point : c.toNat = 0x10000 + 0x400 * m + n) :
      SpellsChar c ['\\', 'u', a₁, a₂, a₃, a₄, '\\', 'u', b₁, b₂, b₃, b₄]

inductive SpellsText (s : String) : List Char → Prop
  | quoted {parts : List (List Char)} (each : List.Forall₂ SpellsChar s.toList parts) :
      SpellsText s ('"' :: parts.flatten ++ ['"'])

/-- A member of an object: white space, the key, white space, a colon and the value. -/
structure MemberText where
  before : List Char
  key : List Char
  between : List Char
  value : List Char

namespace MemberText

def chars (m : MemberText) : List Char := m.before ++ m.key ++ m.between ++ ':' :: m.value

structure SpellsKey (m : MemberText) (key : String) : Prop where
  before : Spaces m.before
  key : SpellsText key m.key
  between : Spaces m.between

end MemberText

inductive Spells : Value → List Char → Prop
  | null : Spells .null ['n', 'u', 'l', 'l']
  | true : Spells (.bool true) ['t', 'r', 'u', 'e']
  | false : Spells (.bool false) ['f', 'a', 'l', 's', 'e']
  | integer (n : Integer) : Spells (.number (.integer n)) n.chars
  | text {s : String} {cs : List Char} (h : SpellsText s cs) : Spells (.text s) cs
  | emptyList (cs : List Char) (h : Spaces cs) : Spells (.list []) ('[' :: cs ++ [']'])
  | list (items : List (Value × List Char)) (some : items ≠ [])
      (each : ∀ i ∈ items, Spells i.1 i.2) :
      Spells (.list (items.map (·.1))) ('[' :: commaSeparated (items.map (·.2)) ++ [']'])
  | emptyObject (cs : List Char) (h : Spaces cs) : Spells (.object []) ('\x7b' :: cs ++ ['\x7d'])
  | object (written : List ((String × Value) × MemberText)) {members : List (String × Value)}
      (some : written ≠ []) (keys : ∀ m ∈ written, m.2.SpellsKey m.1.1)
      (each : ∀ m ∈ written, Spells m.1.2 m.2.value) (order : (written.map (·.1)).Perm members) :
      Spells (.object members)
        ('\x7b' :: commaSeparated (written.map (·.2.chars)) ++ ['\x7d'])
  | padded {v : Value} {before cs after : List Char} (hbefore : Spaces before) (h : Spells v cs)
      (hafter : Spaces after) : Spells v (before ++ cs ++ after)

theorem spellsChar_escapedChar (c : Char) : SpellsChar c (escapedChar c) := by
  unfold escapedChar
  repeat' split
  case isFalse.isFalse.isFalse.isFalse.isFalse.isFalse.isFalse.isTrue h =>
    have hquad := Text.hexQuad?_hexDigit (a := 0) (b := 0) (c := c.toNat / 16) (d := c.toNat % 16)
      (by decide) (by decide) (by omega) (by omega)
    have hvalue : ((0 * 16 + 0) * 16 + c.toNat / 16) * 16 + c.toNat % 16 = c.toNat := by omega
    rw [hvalue] at hquad
    exact .unit hquad
  case isFalse.isFalse.isFalse.isFalse.isFalse.isFalse.isFalse.isFalse
      hquote hbackslash _ _ _ _ _ h =>
    exact .plain (by omega) hquote hbackslash
  all_goals
    subst c
    exact .letter (by decide)

theorem spellsText_textChars (s : String) : SpellsText s (textChars s) := by
  have hparts : List.Forall₂ SpellsChar s.toList (s.toList.map escapedChar) := by
    rw [List.forall₂_map_right_iff]
    exact List.forall₂_same.mpr fun c _ => spellsChar_escapedChar c
  rw [textChars, List.flatMap_def]
  exact .quoted hparts

/-- A member of an object as it stands in compact text. -/
def MemberText.compact (m : String × Value) : MemberText :=
  ⟨[], textChars m.1, [], compactChars m.2⟩

/-- The compact text of a value without floating-point numbers is one of its spellings. -/
theorem spells_compactChars {v : Value} (h : v.Throughout Value.Exact) :
    Spells v (compactChars v) := by
  induction h with
  | @intro v here _ ih =>
    cases v with
    | null => exact .null
    | bool b =>
      cases b with
      | true => exact .true
      | false => exact .false
    | number n =>
      cases n with
      | integer n => exact .integer n
      | real x => exact absurd here id
    | text s => exact .text (spellsText_textChars s)
    | list items =>
      by_cases hnil : items = []
      · subst hnil
        exact .emptyList [] nofun
      · have hspells := Spells.list (items.map fun v => (v, compactChars v))
          (by simpa using hnil) (List.forall_mem_map.mpr ih)
        simpa [compactChars, compactItems_eq_map, Function.comp_def] using hspells
    | object members =>
      by_cases hnil : members = []
      · subst hnil
        exact .emptyObject [] nofun
      · have hkeys : ∀ m : String × Value, (MemberText.compact m).SpellsKey m.1 := fun m =>
          ⟨nofun, spellsText_textChars m.1, nofun⟩
        have heach : ∀ m ∈ members, Spells m.2 (MemberText.compact m).value := fun m hm =>
          ih m.2 (List.mem_map_of_mem hm)
        have hspells := Spells.object (members.map fun m => (m, MemberText.compact m))
          (by simpa using hnil) (List.forall_mem_map.mpr fun m _ => hkeys m)
          (List.forall_mem_map.mpr heach) (.refl _)
        simpa [compactChars, compactMembers_eq_map, MemberText.chars, MemberText.compact,
          Function.comp_def] using hspells

theorem prettyItems_eq_map (depth : Nat) (items : List Value) :
    prettyItems depth items = items.map (prettyChars depth) := by
  induction items with
  | nil => rfl
  | cons v rest ih => simp [prettyItems, ih]

theorem prettyMembers_eq_map (depth : Nat) (members : List (String × Value)) :
    prettyMembers depth members =
      members.map fun m => textChars m.1 ++ ':' :: ' ' :: prettyChars depth m.2 := by
  induction members with
  | nil => rfl
  | cons m rest ih => simp [prettyMembers, ih]

theorem spaces_newline (depth : Nat) : Spaces (newline depth) := by
  intro c hc
  rcases List.mem_cons.mp hc with rfl | hc
  · decide
  · rw [List.eq_of_mem_replicate hc]
    decide

theorem commaSeparated_cons {xs : List (List Char)} (h : xs ≠ []) (x : List Char) :
    commaSeparated (x :: xs) = x ++ ',' :: commaSeparated xs := by
  cases xs with
  | nil => exact absurd rfl h
  | cons y ys => rfl

/-- What follows a list of texts may as well belong to the last of them. -/
theorem commaSeparated_concat_append (xs : List (List Char)) (x after : List Char) :
    commaSeparated (xs ++ [x ++ after]) = commaSeparated (xs ++ [x]) ++ after := by
  induction xs with
  | nil => rfl
  | cons y xs ih =>
    rw [List.cons_append, List.cons_append, commaSeparated_cons (by simp),
      commaSeparated_cons (by simp), ih, List.append_assoc, List.cons_append]

/-- A block of lines is a list of texts with white space around each. -/
theorem block_concat (opening closing : Char) (depth : Nat) (lines : List (List Char))
    (last : List Char) :
    block opening closing depth (lines ++ [last]) =
      opening :: commaSeparated (lines.map (newline (depth + 1) ++ ·) ++
        [newline (depth + 1) ++ last ++ newline depth]) ++ [closing] := by
  have hblock : ∀ {ls : List (List Char)}, ls ≠ [] → block opening closing depth ls =
      opening :: commaSeparated (ls.map (newline (depth + 1) ++ ·)) ++ newline depth ++
        [closing] := by
    intro ls hls
    cases ls with
    | nil => exact absurd rfl hls
    | cons l ls => rfl
  rw [hblock (by simp), commaSeparated_concat_append, List.map_append]
  simp

theorem spells_list_block {items : List Value} {chars : Value → List Char}
    (each : ∀ v ∈ items, Spells v (chars v)) (depth : Nat) :
    Spells (.list items) (block '[' ']' depth (items.map chars)) := by
  rcases List.eq_nil_or_concat' items with rfl | ⟨items, last, rfl⟩
  · exact .emptyList [] nofun
  · obtain ⟨hitems, hlast⟩ := List.forall_mem_append.mp each
    have hlast := hlast last (List.mem_singleton_self last)
    have hline : ∀ v ∈ items, Spells v (newline (depth + 1) ++ chars v) := by
      intro v hv
      have hpadded : Spells v (newline (depth + 1) ++ chars v ++ []) :=
        .padded (spaces_newline (depth + 1)) (hitems v hv) nofun
      rwa [List.append_nil] at hpadded
    have hend := Spells.padded (spaces_newline (depth + 1)) hlast (spaces_newline depth)
    have hspells := Spells.list (items.map (fun v => (v, newline (depth + 1) ++ chars v)) ++
      [(last, newline (depth + 1) ++ chars last ++ newline depth)]) (by simp)
      (List.forall_mem_append.mpr
        ⟨List.forall_mem_map.mpr hline, List.forall_mem_singleton.mpr hend⟩)
    rw [List.map_append, List.map_singleton, block_concat]
    simpa [Function.comp_def] using hspells

/-- A member of an object on a line of its own, and what follows before the next one. -/
def MemberText.line (depth : Nat) (key : String) (value after : List Char) : MemberText :=
  ⟨newline depth, textChars key, [], ' ' :: value ++ after⟩

theorem MemberText.chars_line (depth : Nat) (key : String) (value after : List Char) :
    (line depth key value after).chars =
      newline depth ++ (textChars key ++ ':' :: ' ' :: value) ++ after := by
  simp [chars, line]

theorem spells_object_block {members : List (String × Value)} {chars : Value → List Char}
    (each : ∀ m ∈ members, Spells m.2 (chars m.2)) (depth : Nat) :
    Spells (.object members) (block '\x7b' '\x7d' depth
      (members.map fun m => textChars m.1 ++ ':' :: ' ' :: chars m.2)) := by
  rcases List.eq_nil_or_concat' members with rfl | ⟨members, last, rfl⟩
  · exact .emptyObject [] nofun
  · let written (after : List Char) (m : String × Value) : (String × Value) × MemberText :=
      (m, .line (depth + 1) m.1 (chars m.2) after)
    have hkey : ∀ after m, (written after m).2.SpellsKey m.1 := fun after m =>
      ⟨spaces_newline _, spellsText_textChars m.1, nofun⟩
    have hspace : Spaces [' '] := List.forall_mem_singleton.mpr rfl
    have hvalue : ∀ after, Spaces after → ∀ m ∈ members ++ [last],
        Spells m.2 (written after m).2.value := fun after hafter m hm =>
      .padded hspace (each m hm) hafter
    have hspells : Spells (.object (members ++ [last])) _ := Spells.object
      (members.map (written []) ++ [written (newline depth) last]) (by simp)
      (List.forall_mem_append.mpr ⟨List.forall_mem_map.mpr fun m _ => hkey _ m,
        List.forall_mem_singleton.mpr (hkey _ last)⟩)
      (List.forall_mem_append.mpr
        ⟨List.forall_mem_map.mpr fun m hm => hvalue [] nofun m (List.mem_append_left _ hm),
          List.forall_mem_singleton.mpr (hvalue _ (spaces_newline depth) last (by simp))⟩)
      (by simp [written, Function.comp_def])
    rw [List.map_append, List.map_singleton, block_concat]
    simpa [written, MemberText.chars_line, Function.comp_def] using hspells

/-- The text of a value over several lines is one of its spellings as well. -/
theorem spells_prettyChars {v : Value} (h : v.Throughout Value.Exact) (depth : Nat) :
    Spells v (prettyChars depth v) := by
  induction h generalizing depth with
  | @intro v here _ ih =>
    cases v with
    | null => exact .null
    | bool b =>
      cases b with
      | true => exact .true
      | false => exact .false
    | number n =>
      cases n with
      | integer n => exact .integer n
      | real x => exact absurd here id
    | text s => exact .text (spellsText_textChars s)
    | list items =>
      rw [prettyChars, prettyItems_eq_map]
      exact spells_list_block (fun v hv => ih v hv _) depth
    | object members =>
      rw [prettyChars, prettyMembers_eq_map]
      exact spells_object_block (fun m hm => ih m.2 (List.mem_map_of_mem hm) _) depth

end Dialogue.Json
