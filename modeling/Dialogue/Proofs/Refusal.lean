import Dialogue.Proofs.Ensemble

/-!
# Why a move is refused

What a move comes to can be told from the script and the line on show: a cursor must be one of that
line, and a label that is asked for must be there. A move that is refused leaves no trace.
-/
namespace Dialogue

namespace Script

/-- The label that a jump asks for in vain. The reserved one is always there. -/
def lacking? (s : Script) (jump : Option String) : Option String :=
  (Text.present? jump).filter fun label => label ≠ endLabel ∧ ∀ l ∈ s.lines, l.label? ≠ some label

/-- What leaving line `i` with this jump comes to. -/
def verdict (s : Script) (i : Nat) (jump : Option String) : Except EngineError Unit :=
  match s.lacking? jump with
  | some label => .error (.unresolvedJump label i)
  | none => .ok ()

theorem lacking?_eq_some {s : Script} {jump : Option String} {label : String} :
    s.lacking? jump = some label ↔ jump = some label ∧ Text.blank label = false ∧
      label ≠ endLabel ∧ ∀ l ∈ s.lines, l.label? ≠ some label := by
  simp [lacking?, Option.filter_eq_some_iff, Text.present?_eq_some, and_assoc]

@[simp] theorem verdict_present? (s : Script) (i : Nat) (jump : Option String) :
    s.verdict i (Text.present? jump) = s.verdict i jump := by
  simp [verdict, lacking?]

/-- The one cause for which a way out is closed. -/
theorem verdict_ne_error {e : EngineError} (h : ∀ label n, e ≠ .unresolvedJump label n) (s : Script)
    (i : Nat) (jump : Option String) : s.verdict i jump ≠ .error e := by
  unfold verdict
  split
  · next label _ => exact fun he => h label i (Except.error.inj he).symm
  · exact nofun

end Script

/-- A table lacks the labels that the script lacks. -/
theorem LabelTable.find?_eq_none_iff {t : LabelTable} {s : Script} (h : t.Describes s)
    {label : String} :
    t.find? label = none ↔ label ≠ endLabel ∧ ∀ l ∈ s.lines, l.label? ≠ some label := by
  constructor
  · intro hn
    constructor
    · rintro rfl
      have hend := (h endLabel s.lineCount).mpr (.inl ⟨rfl, rfl⟩)
      rw [hn] at hend
      cases hend
    · intro l hl hlabel
      obtain ⟨n, hn'⟩ := List.getElem?_of_mem hl
      have hf := (h label n).mpr (.inr ⟨l, hn', hlabel⟩)
      rw [hn] at hf
      cases hf
  · rintro ⟨hend, hlines⟩
    cases hf : t.find? label with
    | none => rfl
    | some n =>
      rcases (h label n).mp hf with ⟨he, _⟩ | ⟨l, hl, hlabel⟩
      · exact absurd he hend
      · exact absurd hlabel (hlines l (List.mem_of_getElem? hl))

theorem Script.lacking?_eq_some_iff_find? {t : LabelTable} {s : Script} (h : t.Describes s)
    {jump : Option String} {label : String} (hp : Text.present? jump = some label) :
    s.lacking? jump = some label ↔ t.find? label = none := by
  obtain ⟨hjump, hblank⟩ := Text.present?_eq_some.mp hp
  rw [lacking?_eq_some, LabelTable.find?_eq_none_iff h]
  exact ⟨fun hl => hl.2.2, fun hl => ⟨hjump, hblank, hl⟩⟩

/-- Whether an operation tries to move on. -/
def Operation.moves {α : Type} : Operation α → Bool
  | .advance _ | .advanceMain | .choose _ | .select _ => true
  | .load _ | .loadText _ | .reset | .subscribe _ _ | .unsubscribe _ => false

namespace Playback

variable {α : Type}

/-- A cursor of the line on show. -/
def Live (p : Playback) (c : Cursor) : Prop := ∃ l, p.current = some l ∧ c ∈ l.cursors

/-- The table of labels decides as the script does. -/
theorem target_verdict {p : Playback} {s : Script} (h : p.labels.Describes s) (i : Nat)
    (jump : Option String) : (p.target i jump).map (fun _ => ()) = s.verdict i jump := by
  cases hp : Text.present? jump with
  | none => simp [target, Script.verdict, Script.lacking?, hp, Except.map]
  | some label =>
    have hlacking := Script.lacking?_eq_some_iff_find? h hp
    cases hf : p.labels.find? label with
    | none => simp [target, hp, hf, Script.verdict, hlacking.mpr hf, Except.map]
    | some n =>
      have hnone : s.lacking? jump = none := by
        cases hl : s.lacking? jump with
        | none => rfl
        | some other =>
          have hjump := (Script.lacking?_eq_some.mp hl).1
          have hother := hjump.symm.trans (Text.present?_eq_some.mp hp).1
          rw [Option.some.inj hother] at hl
          rw [hlacking.mp hl] at hf
          cases hf
      simp [target, hp, hf, Script.verdict, hnone, Except.map]

theorem advance_verdict {p : Playback} {s : Script} (h : p.labels.Describes s) {c : Cursor}
    (hc : p.accepts c) : (p.advance c).result = s.verdict c.origin c.jump := by
  rw [← target_verdict h]
  cases ht : p.target c.origin c.jump with
  | error e => rw [advance_of_target_error hc ht]; rfl
  | ok i => rw [advance_of_target_ok hc ht]; rfl

theorem advanceMain_of_not_active {p : Playback} (h : p.index? = none) :
    p.advanceMain.result = .error .notActive := by
  simp [advanceMain, current, h, refuse]

theorem choose_of_not_active {p : Playback} (h : p.index? = none) (k : Nat) :
    (p.choose k).result = .error .notActive := by
  simp [choose, current, h, refuse]

theorem advanceMain_verdict {p : Playback} (hp : p.Consistent) {i : Nat} {s : Script} {l : Line}
    (hs : p.script? = some s) (hc : p.current = some (p.issue i l)) :
    p.advanceMain.result = s.verdict i l.jump := by
  have ha : p.accepts (p.issue i l).main := accepts_of_mem_current hp hc List.mem_cons_self
  simp only [advanceMain, hc]
  exact (advance_verdict (hp.labelled s hs) ha).trans (s.verdict_present? i l.jump)

theorem choose_verdict {p : Playback} (hp : p.Consistent) {i : Nat} {s : Script} {l : Line}
    (hs : p.script? = some s) (hc : p.current = some (p.issue i l)) (k : Nat) :
    (p.choose k).result =
      match l.choices[k]? with
      | some d => s.verdict i d.jump
      | none => .error (.choiceOutOfRange k l.choices.length) := by
  have hk : (p.issue i l).choices[k]? = l.choices[k]?.map fun d =>
      ⟨p.stamp, .choice k, i, d.text, d.jump?, d.message?⟩ := by
    simp [issue]
  cases hd : l.choices[k]? with
  | none =>
    rw [hd, Option.map_none] at hk
    simp only [choose, hc, hk, refuse]
    simp [issue]
  | some d =>
    rw [hd, Option.map_some] at hk
    have ha := accepts_of_mem_current hp hc (List.mem_cons_of_mem _ (List.mem_of_getElem? hk))
    simp only [choose, hc, hk]
    exact (advance_verdict (hp.labelled s hs) ha).trans (s.verdict_present? i d.jump)

/-- What the moves that name no cursor come to in either kind of state. -/
theorem result_of_consistent {p : Playback} (hp : p.Consistent) (k : Nat) :
    match p.index? with
    | none => p.advanceMain.result = .error .notActive ∧ (p.choose k).result = .error .notActive
    | some i => ∃ s l, p.script? = some s ∧ s.line? i = some l ∧
        p.advanceMain.result = s.verdict i l.jump ∧
        (p.choose k).result =
          match l.choices[k]? with
          | some d => s.verdict i d.jump
          | none => .error (.choiceOutOfRange k l.choices.length) := by
  cases hi : p.index? with
  | none => exact ⟨advanceMain_of_not_active hi, choose_of_not_active hi k⟩
  | some i =>
    obtain ⟨s, l, hs, hl, hline⟩ := line?_of_index? hp hi
    have hc : p.current = some (p.issue i l) := by simp [current_eq_issue hp, hi, hline]
    exact ⟨s, l, hs, hl, advanceMain_verdict hp hs hc, choose_verdict hp hs hc k⟩

/-- While a line is on show, a move fails because of its jump or because there is no such choice. -/
theorem result_ne_error {p : Playback} (hp : p.Consistent) (ha : p.active) {e : EngineError}
    (hjump : ∀ label n, e ≠ .unresolvedJump label n) (hrange : ∀ k n, e ≠ .choiceOutOfRange k n)
    (k : Nat) : p.advanceMain.result ≠ .error e ∧ (p.choose k).result ≠ .error e := by
  obtain ⟨i, hi⟩ := Option.isSome_iff_exists.mp ha
  have h := result_of_consistent hp k
  rw [hi] at h
  obtain ⟨s, l, _, _, hmain, hchoice⟩ := h
  rw [hmain, hchoice]
  refine ⟨Script.verdict_ne_error hjump s i _, ?_⟩
  split
  · exact Script.verdict_ne_error hjump s i _
  · exact fun he => hrange _ _ (Except.error.inj he).symm

theorem notActive_iff {p : Playback} (hp : p.Consistent) (k : Nat) :
    (p.advanceMain.result = .error .notActive ↔ p.active = false) ∧
      ((p.choose k).result = .error .notActive ↔ p.active = false) := by
  cases ha : p.active with
  | false =>
    have hi : p.index? = none := by simpa [active] using ha
    simp [advanceMain_of_not_active hi, choose_of_not_active hi]
  | true =>
    have h := result_ne_error hp ha (e := .notActive) (by simp) (by simp) k
    simp [h.1, h.2]

theorem result_ne_staleCursor {p : Playback} (hp : p.Consistent) (n k : Nat) :
    p.advanceMain.result ≠ .error (.staleCursor n) ∧
      (p.choose k).result ≠ .error (.staleCursor n) := by
  cases ha : p.active with
  | false =>
    have hidle := notActive_iff hp k
    rw [hidle.1.mpr ha, hidle.2.mpr ha]
    simp
  | true => exact result_ne_error hp ha (by simp) (by simp) k

theorem result_of_not_accepts {p : Playback} {c : Cursor} (h : p.accepts c = false) :
    (p.advance c).result = .error (.staleCursor c.origin) := by
  rw [advance_of_not_accepts h, refuse]

theorem verdict_of_accepts {p : Playback} (hp : p.Consistent) {c : Cursor} (h : p.accepts c) :
    ∃ s, p.script? = some s ∧ p.index? = some c.origin ∧
      (p.advance c).result = s.verdict c.origin c.jump := by
  obtain ⟨hi, _⟩ := accepts_iff.mp h
  obtain ⟨s, _, hs, _⟩ := line?_of_index? hp hi
  exact ⟨s, hs, hi, advance_verdict (hp.labelled s hs) h⟩

theorem staleCursor_iff {p : Playback} (hp : p.Consistent) {c : Cursor} :
    (p.advance c).result = .error (.staleCursor c.origin) ↔ p.accepts c = false := by
  constructor
  · intro hr
    cases ha : p.accepts c with
    | false => rfl
    | true =>
      obtain ⟨s, _, _, hv⟩ := verdict_of_accepts hp ha
      exact absurd (hv.symm.trans hr) (Script.verdict_ne_error (by simp) s _ _)
  · exact result_of_not_accepts

theorem turn_of_error {p : Playback} {op : Operation α} (hm : op.moves) {e : EngineError}
    (h : (p.turn op).result = .error e) : p.turn op = p.refuse e := by
  have hl : p.leaves op = false := by
    cases op <;> simp_all [Operation.moves, leaves, Except.isOk, Except.toBool]
  have he := effect_turn p op
  generalize p.turn op = t at he h ⊢
  cases he with
  | kept _ result =>
    obtain rfl : result = .error e := h
    rfl
  | emptied leaves | started leaves | moved leaves =>
    rw [hl] at leaves
    cases leaves

end Playback

namespace Engine

variable {α : Type}

/-- A move that is refused leaves the whole engine as it was, and no handler is called. -/
theorem perform_of_error {e : Engine α} {op : Operation α} (hm : op.moves) {err : EngineError}
    (h : (e.perform op).result = .error err) : e.perform op = ⟨e, [], .error err⟩ := by
  rw [perform_result] at h
  have ht := Playback.turn_of_error hm h
  have hb : e.perform op = e.broadcast (e.playback.turn op) := by
    cases op with
    | load | loadText | reset | subscribe | unsubscribe => cases hm
    | _ => rfl
  rw [hb, ht]
  rfl

end Engine

namespace Ensemble

variable {α : Type} {first later : List (Act α)} {i j : Nat} {p q : Playback} {l : CurrentLine}

/-- Among the cursors that engines have issued, an engine accepts those it has on show. -/
theorem accepts_iff_live (seen : ({} : Ensemble α).Glimpse first i p) (shown : p.current = some l)
    (seenLater : ({} : Ensemble α).Glimpse (first ++ later) j q) {c : Cursor}
    (issued : c ∈ l.cursors) : q.accepts c ↔ q.Live c := by
  have hp := (consistent_of_glimpse seen).1
  have hq := (consistent_of_glimpse seenLater).1
  constructor
  · intro ha
    have hc := Playback.accepts_of_mem_current hp shown issued
    have hstamp : p.stamp = q.stamp :=
      (Playback.accepts_iff.mp hc).2.symm.trans (Playback.accepts_iff.mp ha).2
    -- So the cursor is of this engine, and the line it was issued for has not been left since.
    obtain ⟨rfl, hd⟩ := (stamp_eq_iff seen seenLater).mp hstamp
    exact ⟨l, by rw [eq_of_not_departs seen seenLater hd, shown], issued⟩
  · rintro ⟨m, hm, hc⟩
    exact Playback.accepts_of_mem_current hq hm hc

/-- When each of the four moves is refused, and for which error; what is refused leaves no trace. -/
theorem moves_refused_exactly (seen : ({} : Ensemble α).Glimpse first i p)
    (shown : p.current = some l) {c : Cursor} (issued : c ∈ l.cursors) {e : Engine α}
    (there : (({} : Ensemble α).run (first ++ later)).engines[j]? = some e) (k : Nat) :
    let q := e.playback
    ((e.advance c).result = .error (.staleCursor c.origin) ↔ ¬ q.Live c) ∧
      (q.Live c → ∃ s, q.script? = some s ∧ q.index? = some c.origin ∧
        (e.advance c).result = s.verdict c.origin c.jump) ∧
      (e.advanceMain.result = .error .notActive ↔ q.active = false) ∧
      ((e.choose k).result = .error .notActive ↔ q.active = false) ∧
      (∀ n, q.index? = some n → ∃ s m, q.script? = some s ∧ s.line? n = some m ∧
        e.advanceMain.result = s.verdict n m.jump ∧
        (e.choose k).result =
          match m.choices[k]? with
          | some d => s.verdict n d.jump
          | none => .error (.choiceOutOfRange k m.choices.length)) ∧
      (e.select .main = e.advanceMain ∧ ∀ x, e.select (.choice x) = e.choose x.toNat) ∧
      (∀ n, e.advanceMain.result ≠ .error (.staleCursor n) ∧
        (e.choose k).result ≠ .error (.staleCursor n)) ∧
      ∀ (op : Operation α) (err : EngineError), op.moves → (e.perform op).result = .error err →
        e.perform op = ⟨e, [], .error err⟩ ∧
          ∀ d, q.Live d → (e.perform op).engine.playback.accepts d := by
  intro q
  have seenLater : ({} : Ensemble α).Glimpse (first ++ later) j q := .after _ there
  have hq : q.Consistent := (consistent_of_glimpse seenLater).1
  have hlive := accepts_iff_live seen shown seenLater issued
  have hidle := Playback.notActive_iff hq k
  refine ⟨?_, fun live => Playback.verdict_of_accepts hq (hlive.mpr live), hidle.1, hidle.2, ?_,
    ⟨rfl, fun _ => rfl⟩, fun n => Playback.result_ne_staleCursor hq n k, ?_⟩
  · rw [← hlive, Bool.not_eq_true]
    exact Playback.staleCursor_iff hq
  · intro n hn
    have hresult := Playback.result_of_consistent hq k
    rw [hn] at hresult
    exact hresult
  · intro op err hm he
    have hp := Engine.perform_of_error hm he
    refine ⟨hp, ?_⟩
    rintro d ⟨m, hm, hd⟩
    rw [hp]
    exact Playback.accepts_of_mem_current hq hm hd

/-- A choice that leads nowhere, and one that is not there. -/
theorem lost_choice_refused :
    let s : Script := {
      lines := [{ text := "Pick", choices := [{ text := "Broken", jump := some "nowhere" },
        { text := "Fine" }] }, { text := "Arrived", label := some "there" }] }
    let acts : List (Act Unit) := [.create, .tell 0 (.subscribe .all ()), .tell 0 (.load s)]
    let e := ((Engine.new 1).run [.subscribe .all (), .load s])
    let main : Cursor := ⟨⟨1, 2⟩, .main, 0, "Pick", none, none⟩
    let broken : Cursor := ⟨⟨1, 2⟩, .choice 0, 0, "Broken", some "nowhere", none⟩
    let fine : Cursor := ⟨⟨1, 2⟩, .choice 1, 0, "Fine", none, none⟩
    ({} : Ensemble Unit).Glimpse acts 0 e.playback ∧
      e.playback.current = some ⟨main, [broken, fine]⟩ ∧
      (({} : Ensemble Unit).run (acts ++ [])).engines[0]? = some e ∧
      e.perform (.advance broken) = ⟨e, [], .error (.unresolvedJump "nowhere" 0)⟩ ∧
      e.playback.accepts fine ∧ (e.choose 2).result = .error (.choiceOutOfRange 2 2) := by
  intro s acts e main broken fine
  have there : (({} : Ensemble Unit).run (acts ++ [])).engines[0]? = some e := rfl
  have seen : ({} : Ensemble Unit).Glimpse acts 0 e.playback := .after acts there
  have shown : e.playback.current = some ⟨main, [broken, fine]⟩ := rfl
  have issued : broken ∈ (⟨main, [broken, fine]⟩ : CurrentLine).cursors := by decide
  obtain ⟨_, jump, _, _, onShow, _, _, kept⟩ :=
    moves_refused_exactly seen shown issued there 2
  obtain ⟨t, ht, _, hverdict⟩ := jump ⟨_, shown, issued⟩
  obtain rfl : s = t := Option.some.inj ht
  obtain ⟨hstays, hlive⟩ := kept (.advance broken) (.unresolvedJump "nowhere" 0) rfl
    (hverdict.trans rfl)
  obtain ⟨u, m, hu, hm, _, hchoice⟩ := onShow 0 rfl
  obtain rfl : s = u := Option.some.inj hu
  obtain rfl : s.lines[0] = m := Option.some.inj hm
  have hfine := hlive fine ⟨_, shown, by decide⟩
  rw [hstays] at hfine
  exact ⟨seen, shown, there, hstays, hfine, hchoice.trans rfl⟩

end Ensemble

end Dialogue
