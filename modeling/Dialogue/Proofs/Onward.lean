import Dialogue.Proofs.Endings
import Dialogue.Proofs.Refusal
import Dialogue.Proofs.Walk

/-!
# Scripts that only lead on

If no jump of a script leads back, every move that goes through brings the end nearer, so there are no
more such moves than lines. Whoever moves may hold cursors that are out of date, or those of another
engine: what counts is that some engine issued them, for then none is accepted but those of the line
on show.
-/
namespace Dialogue

/-- The jumps of all ways out of a line. -/
def Line.jumps (l : Line) : List (Option String) := l.jump :: l.choices.map (·.jump)

namespace Script

variable {s : Script} {i : Nat} {jump : Option String}

/-- A jump from line `i` leads on if it is blank, or asks for the end or for a line that comes
later. -/
def LeadsOn (s : Script) (i : Nat) (jump : Option String) : Prop :=
  ∀ label, Text.present? jump = some label →
    label = endLabel ∨ ∃ j l, i < j ∧ s.line? j = some l ∧ l.label? = some label

def Onward (s : Script) : Prop :=
  ∀ i l, s.line? i = some l → ∀ jump ∈ l.jumps, s.LeadsOn i jump

/-- All jumps are blank. -/
def Straight (s : Script) : Prop :=
  ∀ i l, s.line? i = some l → ∀ jump ∈ l.jumps, Text.present? jump = none

theorem Straight.onward (h : s.Straight) : s.Onward := by
  intro i l hl jump hjump label hlabel
  rw [h i l hl jump hjump] at hlabel
  cases hlabel

theorem LeadsOn.goal_eq {t : LabelTable} (ht : t.Describes s) (hi : i < s.lineCount)
    (h : s.LeadsOn i jump) : ∃ k, Walk.goal s i jump = .ok k ∧ i < k ∧ k ≤ s.lineCount ∧
      (Text.present? jump = none → k = i + 1) := by
  cases hjump : Text.present? jump with
  | none => exact ⟨i + 1, by simp only [Walk.goal, hjump], Nat.lt_succ_self i, hi, fun _ => rfl⟩
  | some label =>
    obtain ⟨rfl, hblank⟩ := Text.present?_eq_some.mp hjump
    rcases h label hjump with hend | ⟨j, l, hj, hl, hlabel⟩
    · refine ⟨s.lineCount, ?_, hi, Nat.le_refl _, by simp⟩
      exact (Playback.goal_eq_ok_iff ht hblank i _).mpr (.inl ⟨hend, rfl⟩)
    · refine ⟨j, ?_, hj, ?_, by simp⟩
      · exact (Playback.goal_eq_ok_iff ht hblank i j).mpr (.inr ⟨l, hl, hlabel⟩)
      · exact Nat.le_of_lt (List.getElem?_eq_some_iff.mp hl).1

end Script

/-- How many lines a walk can come to at most from a place on, with the one it is at. -/
def Walk.remaining (s : Script) : Option Nat → Nat
  | none => 0
  | some i => s.lineCount - i

theorem Walk.remaining_arrive (s : Script) (k : Nat) :
    remaining s (arrive s k).1 = s.lineCount - k := by
  cases h : s.line? k with
  | some l => simp only [arrive, h, remaining]
  | none =>
    have hk := Script.line?_eq_none_iff.mp h
    simp only [arrive, h, remaining]
    omega

/-- The choice that an operation asks for. -/
def Operation.choice? {α : Type} : Operation α → Option Nat
  | .choose k => some k
  | .select (.choice k) => some k.toNat
  | _ => none

namespace Playback

variable {α : Type} {p : Playback} {s : Script} {i : Nat} {c : Cursor} {op : Operation α}

theorem jump_of_live (h : p.Shows s (some i)) (live : p.Live c) :
    ∃ l, s.line? i = some l ∧ ∃ jump ∈ l.jumps, c.jump = Text.present? jump := by
  obtain ⟨m, hm, hc⟩ := live
  obtain ⟨n, l, hn, hl, rfl⟩ := exists_issue_of_current h.consistent hm
  obtain rfl := Option.some.inj (h.index.symm.trans hn)
  refine ⟨l, by simpa [line?, h.script] using hl, ?_⟩
  rcases List.mem_cons.mp hc with rfl | hc
  · exact ⟨l.jump, List.mem_cons_self, rfl⟩
  · obtain ⟨k, hk, rfl⟩ := List.mem_mapIdx.mp hc
    exact ⟨_, List.mem_cons_of_mem _ (List.mem_map_of_mem (List.getElem_mem hk)), rfl⟩

/-- By a cursor of the line on show a playback comes to a later line or to the end. -/
theorem advance_of_live (h : p.Shows s (some i)) (onward : s.Onward) (live : p.Live c) :
    (p.advance c).result = .ok () ∧ ∃ k, (p.advance c).playback.Shows s (Walk.arrive s k).1 ∧
      i < k ∧ k ≤ s.lineCount ∧ (s.Straight → k = i + 1) := by
  obtain ⟨l, hl, jump, hjump, hcursor⟩ := jump_of_live h live
  have haccepts : p.accepts c := by
    obtain ⟨m, hm, hc⟩ := live
    exact accepts_of_mem_current h.consistent hm hc
  have hi : i < s.lineCount := (List.getElem?_eq_some_iff.mp hl).1
  obtain ⟨k, hgoal, hlt, hle, hnext⟩ :=
    (onward i l hl jump hjump).goal_eq (h.consistent.labelled s h.script) hi
  have hmessage : Walk.remark c.message = Walk.remark c.message := rfl
  have hadvance := advance_eq_walk h haccepts hcursor hmessage
  rw [hgoal] at hadvance
  obtain ⟨hresult, _, hshows⟩ := hadvance
  exact ⟨hresult, k, hshows, hlt, hle, fun straight => hnext (straight i l hl jump hjump)⟩

/-- An operation that names no cursor picks one of the line on show. -/
theorem live_of_cursor? (hc : p.cursor? op = some c) (hop : ∀ d, op ≠ .advance d) : p.Live c := by
  cases op with
  | advance d => exact absurd rfl (hop d)
  | advanceMain =>
    obtain ⟨l, hl, rfl⟩ := Option.map_eq_some_iff.mp hc
    exact ⟨l, hl, List.mem_cons_self⟩
  | choose k =>
    obtain ⟨l, hl, hk⟩ := Option.bind_eq_some_iff.mp hc
    exact ⟨l, hl, List.mem_cons_of_mem _ (List.mem_of_getElem? hk)⟩
  | select x =>
    cases x with
    | main =>
      obtain ⟨l, hl, rfl⟩ := Option.map_eq_some_iff.mp hc
      exact ⟨l, hl, List.mem_cons_self⟩
    | choice k =>
      obtain ⟨l, hl, hk⟩ := Option.bind_eq_some_iff.mp hc
      exact ⟨l, hl, List.mem_cons_of_mem _ (List.mem_of_getElem? hk)⟩
  | _ => cases hc

/-- If a cursor that is named and accepted is always one of the line on show, so is any that is picked
and accepted. -/
theorem live_of_picked (genuine : ∀ d, op = .advance d → p.accepts d → p.Live d)
    (hc : p.cursor? op = some c) (accepted : p.accepts c) : p.Live c := by
  by_cases hnamed : ∃ d, op = .advance d
  · obtain ⟨d, rfl⟩ := hnamed
    obtain rfl : d = c := Option.some.inj hc
    exact genuine d rfl accepted
  · exact live_of_cursor? hc fun d hd => hnamed ⟨d, hd⟩

theorem moves_of_cursor? (hc : p.cursor? op = some c) : op.moves := by
  cases op with
  | load | loadText | reset | subscribe | unsubscribe => cases hc
  | _ => rfl

/-- What an operation comes to that does not abandon the script: a move from line `i` to `k`, if there
is such a line, or nothing. -/
inductive Stride (s : Script) (p : Playback) (op : Operation α) (t : Turn) : Prop
  | stays (same : t.playback = p) (refused : op.moves → t.result ≠ .ok ())
  | goes {c : Cursor} {i k : Nat} (picked : p.cursor? op = some c) (left : p.index? = some i)
      (through : t.result = .ok ()) (shows : t.playback.Shows s (Walk.arrive s k).1)
      (later : i < k) (within : k ≤ s.lineCount) (next : s.Straight → k = i + 1)

theorem stride_turn (h : p.Shows s p.index?) (onward : s.Onward) (hop : op.clears = false)
    (genuine : ∀ d, op = .advance d → p.accepts d → p.Live d) : Stride s p op (p.turn op) := by
  cases hc : p.cursor? op with
  | none =>
    have hleaves := leaves_of_cursor?_none hc hop
    refine .stays (turn_of_stays hleaves) fun hm hresult => ?_
    have hok : p.leaves op = (p.turn op).result.isOk := by
      cases op with
      | load | loadText | reset | subscribe | unsubscribe => cases hm
      | _ => rfl
    rw [hleaves, hresult] at hok
    cases hok
  | some c =>
    rw [turn_eq_advance hc]
    cases haccepts : p.accepts c with
    | false =>
      rw [advance_of_not_accepts haccepts]
      exact .stays rfl fun _ => nofun
    | true =>
      have hindex := (accepts_iff.mp haccepts).1
      rw [hindex] at h
      obtain ⟨hresult, k, hshows, hlt, hle, hnext⟩ :=
        advance_of_live h onward (live_of_picked genuine hc haccepts)
      exact .goes hc hindex hresult hshows hlt hle hnext

/-- Why a move is refused while a line is on show, if no jump leads back: the cursor is not one of that
line, or there is no such choice. -/
inductive Barred (p : Playback) : Operation α → EngineError → Prop
  | stale {c : Cursor} (gone : ¬ p.Live c) : Barred p (.advance c) (.staleCursor c.origin)
  | beyond {op : Operation α} {l : CurrentLine} {k : Nat} (asked : op.choice? = some k)
      (shown : p.current = some l) (none : l.choices.length ≤ k) :
      Barred p op (.choiceOutOfRange k l.choices.length)

theorem barred_choose {l : CurrentLine} (hl : p.current = some l) {k : Nat}
    (asked : op.choice? = some k) (hturn : p.turn op = p.choose k)
    (hk : p.current.bind (·.choices[k]?) = none) {err : EngineError}
    (h : (p.turn op).result = .error err) : Barred p op err := by
  rw [hl] at hk
  have hk : l.choices[k]? = none := hk
  rw [hturn, choose, hl] at h
  simp only [hk, refuse] at h
  obtain rfl := Except.error.inj h
  exact .beyond asked hl (List.getElem?_eq_none_iff.mp hk)

theorem barred_of_error (h : p.Shows s (some i)) (onward : s.Onward) (hm : op.moves)
    (genuine : ∀ d, op = .advance d → p.accepts d → p.Live d) {err : EngineError}
    (herr : (p.turn op).result = .error err) : Barred p op err := by
  obtain ⟨t, m, ht, hline, _⟩ := line?_of_index? h.consistent h.index
  obtain rfl := Option.some.inj (ht.symm.trans h.script)
  have hl := current_of_shows h hline
  cases hc : p.cursor? op with
  | some c =>
    have hgone : ¬ p.Live c := by
      intro hlive
      rw [turn_eq_advance hc, (advance_of_live h onward hlive).1] at herr
      cases herr
    by_cases hnamed : ∃ d, op = .advance d
    · obtain ⟨d, rfl⟩ := hnamed
      obtain rfl : d = c := Option.some.inj hc
      have haccepts : p.accepts d = false :=
        Bool.eq_false_iff.mpr fun ha => hgone (genuine d rfl ha)
      obtain rfl := Except.error.inj (herr.symm.trans (result_of_not_accepts haccepts))
      exact .stale hgone
    · exact absurd (live_of_cursor? hc fun d hd => hnamed ⟨d, hd⟩) hgone
  | none =>
    cases op with
    | load | loadText | reset | subscribe | unsubscribe => cases hm
    | advance d => cases hc
    | advanceMain => simp [cursor?, hl] at hc
    | choose k => exact barred_choose hl rfl rfl hc herr
    | select x =>
      cases x with
      | main => simp [cursor?, hl] at hc
      | choice k => exact barred_choose hl rfl rfl hc herr

end Playback

namespace Engine

variable {α : Type} {e : Engine α} {s : Script} {op : Operation α} {xs ys ops : List (Operation α)}

/-- How many moves of a run go through. -/
def moved (e : Engine α) (ops : List (Operation α)) : Nat :=
  (ops.zip (e.outcomes ops)).countP fun x => x.1.moves && x.2.result.isOk

theorem moved_cons (e : Engine α) (op : Operation α) (ops : List (Operation α)) :
    e.moved (op :: ops) =
      (op.moves && (e.perform op).result.isOk).toNat + (e.perform op).engine.moved ops := by
  simp only [moved, outcomes, List.zip_cons_cons, List.countP_cons]
  cases op.moves && (e.perform op).result.isOk <;> simp [Nat.add_comm]

/-- Of the cursors that are named on the way, those that are accepted are of the line on show. -/
def Genuine (e : Engine α) : List (Operation α) → Prop
  | [] => True
  | op :: ops => (∀ c, op = .advance c → e.playback.accepts c → e.playback.Live c) ∧
      (e.perform op).engine.Genuine ops

/-- A script is being played, and these operations do not abandon it. -/
structure Underway (s : Script) (e : Engine α) (ops : List (Operation α)) : Prop where
  shows : e.playback.Shows s e.playback.index?
  genuine : e.Genuine ops
  keeps : ∀ op ∈ ops, op.clears = false

namespace Underway

theorem stride (h : Underway s e (op :: ops)) (onward : s.Onward) :
    Playback.Stride s e.playback op (e.playback.turn op) :=
  Playback.stride_turn h.shows onward (h.keeps op List.mem_cons_self) h.genuine.1

theorem perform (h : Underway s e (op :: ops)) (onward : s.Onward) :
    Underway s (e.perform op).engine ops where
  shows := by
    rw [perform_playback]
    cases h.stride onward with
    | stays same =>
      rw [same]
      exact h.shows
    | goes _ _ _ shows =>
      rw [shows.index]
      exact shows
  genuine := h.genuine.2
  keeps x hx := h.keeps x (List.mem_cons_of_mem _ hx)

/-- A move that goes through leaves fewer lines that can be come to, one fewer if no line is passed
over. -/
theorem moved_perform (h : Underway s e (op :: ops)) (onward : s.Onward) :
    let n := (op.moves && (e.perform op).result.isOk).toNat
    let r := Walk.remaining s e.playback.index?
    let r' := Walk.remaining s (e.perform op).engine.playback.index?
    n + r' ≤ r ∧ (s.Straight → n + r' = r) := by
  intro n r r'
  cases h.stride onward with
  | stays same refused =>
    have hr : r' = r := by simp only [r, r', perform_playback, same]
    have hn : n = 0 := by
      cases hm : op.moves with
      | false => simp only [n, hm, Bool.false_and, Bool.toNat_false]
      | true =>
        cases hresult : (e.playback.turn op).result with
        | ok => exact absurd hresult (refused hm)
        | error err =>
          simp only [n, perform_result, hresult, Except.isOk, Except.toBool, Bool.and_false,
            Bool.toNat_false]
    omega
  | @goes c i k picked left through shows later within next =>
    have hn : n = 1 := by
      simp only [n, Playback.moves_of_cursor? picked, perform_result, through]
      rfl
    have hr : r = s.lineCount - i := by simp only [r, left, Walk.remaining]
    have hr' : r' = s.lineCount - k := by
      simp only [r', perform_playback, shows.index, Walk.remaining_arrive]
    refine ⟨by omega, fun straight => ?_⟩
    have hk := next straight
    omega

theorem run (h : Underway s e (xs ++ ys)) (onward : s.Onward) :
    Underway s (e.run xs) ys ∧
      e.moved xs + Walk.remaining s (e.run xs).playback.index? ≤
        Walk.remaining s e.playback.index? ∧
      (s.Straight → e.moved xs + Walk.remaining s (e.run xs).playback.index? =
        Walk.remaining s e.playback.index?) := by
  induction xs generalizing e with
  | nil => exact ⟨h, by simp [moved], fun _ => by simp [moved]⟩
  | cons op xs ih =>
    -- What the first operation adds to the moves it takes from the lines that remain.
    obtain ⟨hunderway, hle, heq⟩ := ih (h.perform onward)
    obtain ⟨hdecreases, hstraight⟩ := h.moved_perform onward
    rw [run_cons, moved_cons]
    refine ⟨hunderway, by omega, fun straight => ?_⟩
    have hrest := heq straight
    have hfirst := hstraight straight
    omega

end Underway

end Engine

/-- An operation that loads the script, as it is or from a text. -/
inductive Operation.Opens {α : Type} (s : Script) : Operation α → Prop
  | script : Opens s (.load s)
  | text {source : String} (parsed : Script.parse source = .ok s) : Opens s (.loadText source)

theorem Playback.shows_of_opens {α : Type} {p : Playback} {s : Script} {op : Operation α}
    (opens : op.Opens s) (loads : (p.turn op).result = .ok ()) :
    (p.turn op).playback.Shows s (Walk.arrive s 0).1 := by
  cases opens with
  | script => exact (shows_load loads).1
  | @text source parsed =>
    have htext : p.loadText source = p.reset.load s := by simp only [loadText, parsed]
    simp only [turn, htext] at loads ⊢
    exact (shows_load loads).1

namespace Engine.Underway

variable {α : Type} {e : Engine α} {s : Script} {op : Operation α} {xs ys ops : List (Operation α)}

theorem of_opens (opens : op.Opens s) (loads : (e.perform op).result = .ok ())
    (genuine : (e.perform op).engine.Genuine ops) (keeps : ∀ x ∈ ops, x.clears = false) :
    Underway s (e.perform op).engine ops ∧
      Walk.remaining s (e.perform op).engine.playback.index? = s.lineCount := by
  rw [perform_result] at loads
  have hshows := Playback.shows_of_opens opens loads
  rw [← perform_playback] at hshows
  refine ⟨⟨?_, genuine, keeps⟩, ?_⟩
  · rw [hshows.index]
    exact hshows
  · rw [hshows.index, Walk.remaining_arrive]
    rfl

theorem remaining_pos (h : Underway s e ops) (active : e.playback.active) :
    0 < Walk.remaining s e.playback.index? := by
  obtain ⟨i, hi, hlt⟩ := (Playback.active_iff_lt h.shows.consistent).mp active
  have hcount : e.playback.lineCount = s.lineCount := by simp [Playback.lineCount, h.shows.script]
  rw [hi]
  simp only [Walk.remaining]
  omega

/-- Where it stands can be told from how many lines are left. -/
theorem index?_eq (h : Underway s e ops) {n : Nat}
    (hn : n + Walk.remaining s e.playback.index? = s.lineCount) :
    e.playback.index? = if n < s.lineCount then some n else none := by
  cases hi : e.playback.index? with
  | none =>
    rw [hi] at hn
    simp only [Walk.remaining] at hn
    rw [if_neg (by omega)]
  | some i =>
    have hpos := h.remaining_pos (by simp [Playback.active, hi])
    rw [hi] at hn hpos
    simp only [Walk.remaining] at hn hpos
    rw [if_pos (by omega)]
    congr 1
    omega

/-- A move that goes through comes to a later line or to the end. -/
theorem later_of_moves (h : Underway s e (op :: ops)) (onward : s.Onward) (moves : op.moves)
    (through : (e.perform op).result = .ok ()) : ∃ i, e.playback.index? = some i ∧
      ∀ k, (e.perform op).engine.playback.index? = some k → i < k := by
  rw [perform_result] at through
  cases h.stride onward with
  | stays _ refused => exact absurd through (refused moves)
  | @goes c i k _ left _ shows later =>
    refine ⟨i, left, fun n hn => ?_⟩
    rw [perform_playback, shows.index] at hn
    cases hl : s.line? k with
    | none => simp [Walk.arrive, hl] at hn
    | some l =>
      obtain rfl : k = n := by simpa [Walk.arrive, hl] using hn
      exact later

theorem barred (h : Underway s e (op :: ops)) (onward : s.Onward) (moves : op.moves)
    (active : e.playback.active) {err : EngineError} (herr : (e.perform op).result = .error err) :
    Playback.Barred e.playback op err := by
  rw [perform_result] at herr
  obtain ⟨i, hi⟩ := Option.isSome_iff_exists.mp active
  have hshows := h.shows
  rw [hi] at hshows
  exact Playback.barred_of_error hshows onward moves h.genuine.1 herr

end Engine.Underway

namespace Ensemble

variable {α : Type} {acts before later : List (Act α)} {j : Nat} {e : Engine α}

/-- A cursor of a line that some engine had on show. -/
inductive Issued : List (Act α) → Cursor → Prop
  | mk {first : List (Act α)} (rest : List (Act α)) {i : Nat} {p : Playback} {l : CurrentLine}
      {c : Cursor} (seen : ({} : Ensemble α).Glimpse first i p) (shown : p.current = some l)
      (issued : c ∈ l.cursors) : Issued (first ++ rest) c

/-- Whoever names a cursor to engine `j` was issued it before, by this engine or another. -/
def Honest (j : Nat) (past later : List (Act α)) : Prop :=
  ∀ xs c ys, later = xs ++ .tell j (.advance c) :: ys → Issued (past ++ xs) c

theorem live_of_issued {c : Cursor} (issued : Issued acts c)
    (there : (({} : Ensemble α).run acts).engines[j]? = some e) (accepted : e.playback.accepts c) :
    e.playback.Live c := by
  cases issued with
  | mk rest seen shown hc => exact (accepts_iff_live seen shown (.after _ there) hc).mp accepted

theorem genuine_of_honest (there : (({} : Ensemble α).run before).engines[j]? = some e)
    (honest : Honest j before later) : e.Genuine (later.filterMap (·.for? j)) := by
  induction later generalizing before e with
  | nil => trivial
  | cons act later ih =>
    -- The act joins the past, in which the cursors of the later ones were issued.
    have hrest : Honest j (before ++ [act]) later := by
      intro xs c ys hsplit
      have hissued := honest (act :: xs) c ys (by rw [hsplit, List.cons_append])
      rwa [List.append_assoc, List.singleton_append]
    have hthere : (({} : Ensemble α).run (before ++ [act])).engines[j]? =
        some (e.run (act.for? j).toList) := by
      rw [run_append, run_cons, run_nil, engines_perform there]
    have hgenuine := ih hthere hrest
    cases act with
    | create => exact hgenuine
    | tell i op =>
      by_cases hij : i = j
      · subst hij
        have hfor : (Act.tell i op).for? i = some op := by simp [Act.for?]
        rw [List.filterMap_cons_some hfor]
        rw [hfor] at hgenuine
        refine ⟨?_, hgenuine⟩
        rintro c rfl accepted
        have hissued := honest [] c later rfl
        rw [List.append_nil] at hissued
        exact live_of_issued hissued there accepted
      · have hfor : (Act.tell i op).for? j = none := by simp [Act.for?, hij]
        rw [List.filterMap_cons_none hfor]
        rwa [hfor] at hgenuine

/-- A script in which no jump leads back is played to its end in no more moves than it has lines. -/
theorem onward_script_ends {op : Operation α} {s : Script}
    (there : (({} : Ensemble α).run before).engines[j]? = some e) (opens : op.Opens s)
    (loads : (e.perform op).result = .ok ()) (onward : s.Onward)
    (keeps : ∀ x ∈ later.filterMap (·.for? j), x.clears = false)
    (honest : Honest j (before ++ [.tell j op]) later) :
    let f := (e.perform op).engine
    let ops := later.filterMap (·.for? j)
    (({} : Ensemble α).run (before ++ .tell j op :: later)).engines[j]? = some (f.run ops) ∧
      (∀ xs x ys, ops = xs ++ x :: ys → x.moves →
        let g := f.run xs
        ((g.perform x).result = .ok () → ∃ i, g.playback.index? = some i ∧
          ∀ k, (g.perform x).engine.playback.index? = some k → i < k) ∧
        ∀ err, g.playback.active → (g.perform x).result = .error err →
          Playback.Barred g.playback x err) ∧
      ∀ xs ys, ops = xs ++ ys →
        let p := (f.run xs).playback
        let n := f.moved xs
        n ≤ s.lineCount ∧ (p.active → n < s.lineCount) ∧
          (s.Straight → p.index? = if n < s.lineCount then some n else none) := by
  intro f ops
  have hload : (Act.tell j op).for? j = some op := by simp [Act.for?]
  have hstart : (({} : Ensemble α).run (before ++ [.tell j op])).engines[j]? = some f := by
    rw [run_append, run_cons, run_nil, engines_perform there, hload]
    rfl
  obtain ⟨hunderway, hcount⟩ :=
    Engine.Underway.of_opens opens loads (genuine_of_honest hstart honest) keeps
  refine ⟨?_, ?_, ?_⟩
  · rw [← List.singleton_append, ← List.append_assoc, run_append]
    exact engines_run hstart later
  · intro xs x ys hsplit moves g
    have hsplit : later.filterMap (·.for? j) = xs ++ x :: ys := hsplit
    rw [hsplit] at hunderway
    obtain ⟨hreached, _⟩ := hunderway.run onward
    exact ⟨hreached.later_of_moves onward moves,
      fun err active herr => hreached.barred onward moves active herr⟩
  · intro xs ys hsplit p n
    have hsplit : later.filterMap (·.for? j) = xs ++ ys := hsplit
    rw [hsplit] at hunderway
    obtain ⟨hreached, hle, heq⟩ := hunderway.run onward
    rw [hcount] at hle heq
    have hn : n + Walk.remaining s p.index? ≤ s.lineCount := hle
    refine ⟨by omega, fun active => ?_, fun straight => hreached.index?_eq (heq straight)⟩
    have hpos : 0 < Walk.remaining s p.index? := hreached.remaining_pos active
    omega

/-- At a fork a choice that is not there is refused, and after one that skips a line so is the old
cursor; two moves are enough for three lines. Where all jumps are blank, every line is come to. -/
theorem fork_script_ends :
    let s : Script := {
      lines := [{ text := "Which way?", choices := [{ text := "Over.", jump := some "far" },
          { text := "On." }] }, { text := "Here.", jump := some "end" },
        { text := "There.", label := some "far" }] }
    let t : Script := { lines := [{ text := "One." }, { text := "Two." }] }
    let main : Cursor := ⟨⟨1, 2⟩, .main, 0, "Which way?", none, none⟩
    let before : List (Act Unit) := [.create]
    let later : List (Act Unit) := [.tell 0 (.choose 7), .create, .tell 0 (.choose 0),
      .tell 0 (.advance main), .tell 0 .advanceMain]
    let f := ((Engine.new 1 : Engine Unit).perform (.load s)).engine
    let g := ((Engine.new 1 : Engine Unit).perform (.load t)).engine
    s.Onward ∧ Honest 0 (before ++ [.tell 0 (.load s)]) later ∧
      Playback.Barred f.playback (.choose 7 : Operation Unit) (.choiceOutOfRange 7 2) ∧
      Playback.Barred (f.run [.choose 7, .choose 0]).playback (.advance main : Operation Unit)
        (.staleCursor 0) ∧
      f.moved [.choose 7, .choose 0, .advance main] = 1 ∧
      f.moved [.choose 7, .choose 0, .advance main] < s.lineCount ∧
      (f.run [.choose 7, .choose 0, .advance main, .advanceMain]).playback.active = false ∧
      t.Straight ∧ (g.run [.advanceMain]).playback.index? = some 1 := by
  intro s t main before later f g
  have there : (({} : Ensemble Unit).run before).engines[0]? = some (Engine.new 1) := rfl
  have onward : s.Onward := by
    intro i l hl jump hjump label hlabel
    match i with
    | 0 =>
      obtain rfl := Option.some.inj hl
      obtain rfl | rfl | rfl : jump = none ∨ jump = some "far" ∨ jump = none := by
        simpa [Line.jumps] using hjump
      · cases hlabel
      · obtain rfl : "far" = label := (Text.present?_eq_some.mp hlabel).1 |> Option.some.inj
        exact .inr ⟨2, _, by decide, rfl, by decide⟩
      · cases hlabel
    | 1 =>
      obtain rfl := Option.some.inj hl
      obtain rfl : jump = some "end" := by simpa [Line.jumps] using hjump
      exact .inl ((Text.present?_eq_some.mp hlabel).1 |> Option.some.inj).symm
    | 2 =>
      obtain rfl := Option.some.inj hl
      obtain rfl : jump = none := by simpa [Line.jumps] using hjump
      cases hlabel
    | i + 3 => cases hl
  have honest : Honest 0 (before ++ [.tell 0 (.load s)]) later := by
    intro xs c ys hsplit
    have seen : ({} : Ensemble Unit).Glimpse (before ++ [.tell 0 (.load s)]) 0 f.playback :=
      .after _ rfl
    match xs, hsplit with
    | [_, _, _], hsplit =>
      have hc : main = c := by simp_all [later]
      rw [← hc]
      exact .mk _ seen rfl List.mem_cons_self
    | [], hsplit | [_], hsplit | [_, _], hsplit | [_, _, _, _], hsplit => simp [later] at hsplit
    | _ :: _ :: _ :: _ :: _ :: _, hsplit => simp [later] at hsplit
  have straight : t.Straight := by
    intro i l hl jump hjump
    match i with
    | 0 | 1 =>
      obtain rfl := Option.some.inj hl
      obtain rfl : jump = none := by simpa [Line.jumps] using hjump
      rfl
    | i + 2 => cases hl
  have honest' : Honest 0 (before ++ [.tell 0 (.load t)]) [.tell 0 .advanceMain] := by
    intro xs c ys hsplit
    match xs, hsplit with
    | [], hsplit | [_], hsplit | _ :: _ :: _, hsplit => simp at hsplit
  obtain ⟨_, hmoves, hcounts⟩ := onward_script_ends there .script rfl onward (by decide) honest
  obtain ⟨_, _, hsteps⟩ :=
    onward_script_ends there .script rfl straight.onward (by decide) honest'
  refine ⟨onward, honest, (hmoves [] _ _ rfl rfl).2 _ rfl rfl,
    (hmoves [.choose 7, .choose 0] _ _ rfl rfl).2 _ rfl rfl, rfl,
    (hcounts [.choose 7, .choose 0, .advance main] _ rfl).2.1 rfl, rfl, straight, ?_⟩
  exact (hsteps [.advanceMain] [] rfl).2.2 straight

end Ensemble

end Dialogue
