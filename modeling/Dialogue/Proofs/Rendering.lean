import Dialogue.CommandLine.Play

/-!
# What a player is shown

The text of an entry as it stands on the player's screen, told apart from the lines it is put
together from.
-/
namespace Dialogue.CommandLine

/-- A speech as the player sees it: nobody's, somebody else's, or his own. His own ends at the right
margin, column 64, or sticks out. -/
inductive Spoken (player : String) : String → String → String → Prop
  | narrated (text : String) : Spoken player "" text ("  " ++ text)
  | heard {speaker : String} (named : speaker ≠ "") (other : speaker ≠ player) (text : String) :
      Spoken player speaker text (speaker ++ ": " ++ text)
  | own (named : player ≠ "") {text said : String} (blanks : Nat)
      (signed : said = text ++ " :" ++ player)
      (flush : blanks + said.length = max 64 said.length) :
      Spoken player player text (String.ofList (List.replicate blanks ' ') ++ said)

/-- Choices as the player sees them, one to a line, numbered from `k` on. -/
inductive Listed : Nat → List String → String → Prop
  | nil (k : Nat) : Listed k [] ""
  | cons {k : Nat} {cs : List String} {rest : String} (c : String) (more : Listed (k + 1) cs rest) :
      Listed k (c :: cs) ("  [" ++ toString k ++ "] " ++ c ++ "\n" ++ rest)

/-- An entry as the player sees it. -/
inductive Shown (player : String) : Entry → String → Prop
  | line {speaker text said menu : String} {choices : List String}
      (spoken : Spoken player speaker text said) (listed : Listed 0 choices menu) :
      Shown player (.line speaker text choices) ("\n" ++ said ++ "\n" ++ menu)
  | message (text : String) : Shown player (.message text) ("  * " ++ text ++ "\n")
  | cleared : Shown player .cleared ""
  | finished : Shown player .finished "\n[END]\n"

/-- The text that is written for an entry. -/
def shownText (player : String) (e : Entry) : String := unlines (shownLines player e)

theorem unlines_cons (l : String) (ls : List String) :
    unlines (l :: ls) = l ++ "\n" ++ unlines ls := by
  simp [unlines, String.join_cons]

theorem unlines_append (xs ys : List String) : unlines (xs ++ ys) = unlines xs ++ unlines ys := by
  simp [unlines, String.join_append]

/-- Entries are written one after the other. -/
theorem unlines_shownLines (player : String) (es : List Entry) :
    unlines (es.flatMap (shownLines player)) = String.join (es.map (shownText player)) := by
  induction es with
  | nil => rfl
  | cons e es ih =>
    rw [List.flatMap_cons, unlines_append, ih, List.map_cons, String.join_cons, shownText]

/-- A speech that is not too long is moved to the right margin. -/
theorem ofList_padLeft (s : String) :
    String.ofList (Decimal.padLeft lineWidth ' ' s.toList) =
      String.ofList (List.replicate (lineWidth - s.length) ' ') ++ s := by
  rw [Decimal.padLeft, String.ofList_append, String.ofList_toList, String.length_toList]

theorem spoken_iff {player speaker text said : String} :
    Spoken player speaker text said ↔ said = speech player speaker text := by
  constructor
  · intro h
    cases h with
    | narrated => rfl
    | heard named other => rw [speech, if_neg named, if_neg other]
    | own named blanks signed flush =>
      have hblanks : blanks = lineWidth - (text ++ " :" ++ player).length := by
        rw [← signed, lineWidth]
        omega
      rw [speech, if_neg named, if_pos rfl, ofList_padLeft, ← hblanks, signed]
  · rintro rfl
    by_cases hnone : speaker = ""
    · subst hnone
      exact .narrated text
    by_cases hown : speaker = player
    · subst hown
      rw [speech, if_neg hnone, if_pos rfl, ofList_padLeft]
      exact .own hnone _ rfl (by rw [lineWidth]; omega)
    · rw [speech, if_neg hnone, if_neg hown]
      exact .heard hnone hown text

theorem listed_iff {k : Nat} {choices : List String} {menu : String} :
    Listed k choices menu ↔
      menu = unlines (choices.mapIdx fun i c => "  [" ++ toString (k + i) ++ "] " ++ c) := by
  induction choices generalizing k menu with
  | nil =>
    constructor
    · intro h
      cases h
      rfl
    · rintro rfl
      exact .nil k
  | cons c cs ih =>
    have hcons : unlines ((c :: cs).mapIdx fun i c => "  [" ++ toString (k + i) ++ "] " ++ c) =
        "  [" ++ toString k ++ "] " ++ c ++ "\n" ++
          unlines (cs.mapIdx fun i c => "  [" ++ toString (k + 1 + i) ++ "] " ++ c) := by
      rw [List.mapIdx_cons, unlines_cons, Nat.add_zero]
      simp only [Nat.add_assoc, Nat.add_comm 1]
    rw [hcons]
    constructor
    · intro h
      cases h with
      | cons _ more => rw [ih.mp more]
    · rintro rfl
      exact .cons c (ih.mpr rfl)

theorem shownText_line (player speaker text : String) (choices : List String) :
    shownText player (.line speaker text choices) = "\n" ++ speech player speaker text ++ "\n" ++
      unlines (choices.mapIdx fun i c => "  [" ++ toString (0 + i) ++ "] " ++ c) := by
  simp only [shownText, shownLines, unlines_cons, String.empty_append, Nat.zero_add,
    String.append_assoc]

/-- What is written for an entry is what the player should see of it, and nothing else. -/
theorem shown_iff {player : String} {e : Entry} {text : String} :
    Shown player e text ↔ text = shownText player e := by
  constructor
  · intro h
    cases h with
    | line spoken listed =>
      rw [shownText_line, ← spoken_iff.mp spoken, ← listed_iff.mp listed]
    | message => rfl
    | cleared => rfl
    | finished => rfl
  · rintro rfl
    cases e with
    | line speaker text choices =>
      rw [shownText_line]
      exact .line (spoken_iff.mpr rfl) (listed_iff.mpr rfl)
    | message text => exact .message text
    | cleared => exact .cleared
    | finished => exact .finished

end Dialogue.CommandLine
