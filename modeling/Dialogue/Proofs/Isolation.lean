import Mathlib.Data.List.Basic
import Dialogue.Proofs.Ensemble
import Dialogue.Proofs.FreshStart

/-!
# Engines keep to themselves

A manager has several engines and keeps all the lines that are grabbed from them in one place, so any
cursor can be handed to any engine. Each engine does what it would do for a caller who has no other
engine, and who in place of a stranger's cursor is told that it is refused.
-/
namespace Dialogue

/-- Several engines, and the lines that were grabbed, each with the index of its engine. -/
structure Manager (α : Type) extends Ensemble α where
  grabbed : List (Nat × CurrentLine) := []

/-- What a manager does. The lines that a request counts are those grabbed from any engine. -/
inductive Deed (α : Type) where
  | create
  | ask (index : Nat) (q : Request α)

/-- What remains of a request for one engine: a request about the lines grabbed from it, the refusal
of a cursor that another engine issued, or nothing if there is no such cursor. -/
inductive Errand (α : Type) where
  | own (q : Request α)
  | refused (origin : Nat)
  | void

namespace Caller

variable {α : Type}

def answer (c : Caller α) : Errand α → Outcome α
  | .own q => c.ask q
  | .refused origin => ⟨c.engine, [], .error (.staleCursor origin)⟩
  | .void => ⟨c.engine, [], .ok ()⟩

/-- A refusal changes nothing. -/
def heed (c : Caller α) : Errand α → Caller α
  | .own q => c.after q
  | .refused _ | .void => c

def serve (c : Caller α) (xs : List (Errand α)) : Caller α := xs.foldl heed c

/-- What each errand came to. -/
def answers (c : Caller α) : List (Errand α) → List (Outcome α)
  | [] => []
  | x :: xs => c.answer x :: (c.heed x).answers xs

theorem answer_rename (r : Renaming) (c : Caller α) (x : Errand α) :
    (c.rename r).answer x = (c.answer x).rename r := by
  cases x with
  | own q => exact ask_rename r c q
  | refused | void => rfl

theorem heed_rename (r : Renaming) (c : Caller α) (x : Errand α) :
    (c.rename r).heed x = (c.heed x).rename r := by
  cases x with
  | own q => exact after_rename r c q
  | refused | void => rfl

theorem serve_rename (r : Renaming) (c : Caller α) (xs : List (Errand α)) :
    (c.rename r).serve xs = (c.serve xs).rename r ∧
      (c.rename r).answers xs = (c.answers xs).map (·.rename r) := by
  induction xs generalizing c with
  | nil => exact ⟨rfl, rfl⟩
  | cons x xs ih =>
    obtain ⟨hserve, hanswers⟩ := ih (c.heed x)
    constructor
    · rw [serve, List.foldl_cons, heed_rename]
      exact hserve
    · rw [answers, answer_rename, heed_rename, hanswers]
      rfl

theorem ask_advance_of_some {c : Caller α} {line : Nat} {slot : Slot} {cursor : Cursor}
    (h : c.cursor? line slot = some cursor) :
    c.ask (.advance line slot) = c.engine.advance cursor := by
  simp only [ask, h]

theorem ask_advance_of_none {c : Caller α} {line : Nat} {slot : Slot}
    (h : c.cursor? line slot = none) : c.ask (.advance line slot) = ⟨c.engine, [], .ok ()⟩ := by
  simp only [ask, h]

/-- What a caller asks of an engine comes to operations on it. -/
theorem exists_run_of_ask (c : Caller α) (q : Request α) :
    ∃ ops, (c.ask q).engine = c.engine.run ops := by
  cases q with
  | perform op plain => exact ⟨[op], rfl⟩
  | grab => exact ⟨[], rfl⟩
  | advance line slot =>
    cases h : c.cursor? line slot with
    | some cursor => exact ⟨[.advance cursor], by rw [ask_advance_of_some h]; rfl⟩
    | none => exact ⟨[], by rw [ask_advance_of_none h]; rfl⟩

end Caller

namespace Manager

variable {α : Type}

/-- Someone who has all the lines asks an engine. -/
def holder (m : Manager α) (e : Engine α) : Caller α := ⟨e, m.grabbed.map (·.2)⟩

/-- A deed on an engine that is not there changes nothing. -/
def after (m : Manager α) : Deed α → Manager α
  | .create => { m with toEnsemble := m.toEnsemble.perform .create }
  | .ask i q =>
    match m.engines[i]? with
    | none => m
    | some e =>
      { engines := m.engines.set i ((m.holder e).ask q).engine
        grabbed := m.grabbed ++ ((m.holder e).catch? q).toList.map ((i, ·)) }

def run (m : Manager α) (ds : List (Deed α)) : Manager α := ds.foldl after m

/-- What a deed came to for engine `i`, if it is there and is asked. -/
def outcome? (m : Manager α) (i : Nat) : Deed α → Option (Outcome α)
  | .create => none
  | .ask j q => if j = i then m.engines[i]?.map fun e => (m.holder e).ask q else none

def outcomes (m : Manager α) (i : Nat) : List (Deed α) → List (Outcome α)
  | [] => []
  | d :: ds => (m.outcome? i d).toList ++ (m.after d).outcomes i ds

/-- The lines grabbed from engine `i`. -/
def own (m : Manager α) (i : Nat) : List CurrentLine :=
  (m.grabbed.filter (·.1 = i)).map (·.2)

/-- Which of the lines grabbed from engine `i` this one is. -/
def rank (m : Manager α) (i line : Nat) : Nat := (m.grabbed.take line).countP (·.1 = i)

def errand (m : Manager α) (i : Nat) : Request α → Errand α
  | .advance line slot =>
    match m.grabbed[line]? with
    | none => .void
    | some (j, l) =>
      match l.cursor? slot with
      | none => .void
      | some c => if j = i then .own (.advance (m.rank i line) slot) else .refused c.origin
  | q => .own q

def errand? (m : Manager α) (i : Nat) : Deed α → Option (Errand α)
  | .create => none
  | .ask j q => if j = i then m.engines[i]?.map fun _ => m.errand i q else none

/-- All that is left for engine `i` of what the manager does. -/
def errands (m : Manager α) (i : Nat) : List (Deed α) → List (Errand α)
  | [] => []
  | d :: ds => (m.errand? i d).toList ++ (m.after d).errands i ds

/-- Engine `i`, as it is or will be when it is created, and the lines that were grabbed from it. -/
def share (m : Manager α) (i : Nat) : Caller α := ⟨m.engines[i]?.getD (.new (i + 1)), m.own i⟩

/-- Every line bears the number of the engine it was grabbed from. -/
structure Sound (m : Manager α) : Prop where
  grown : m.toEnsemble.Grown
  stamped : ∀ x ∈ m.grabbed, ∀ c ∈ x.2.cursors, c.stamp.engine = x.1 + 1

theorem sound_empty : ({} : Manager α).Sound := ⟨Ensemble.grown_empty, nofun⟩

/-- A line that is grabbed bears the number of its engine. -/
theorem Sound.stamp_of_catch {m : Manager α} (h : m.Sound) {i : Nat} {e : Engine α}
    (he : m.engines[i]? = some e) {q : Request α} {l : CurrentLine}
    (hl : (m.holder e).catch? q = some l) : ∀ c ∈ l.cursors, c.stamp.engine = i + 1 := by
  intro c hc
  obtain ⟨hconsistent, hid⟩ := h.grown.consistent he
  have hcurrent : e.playback.current = some l := by
    cases q with
    | grab => exact hl
    | perform | advance => cases hl
  have hfresh := Playback.accepts_of_mem_current hconsistent hcurrent hc
  rw [(Playback.accepts_iff.mp hfresh).2, ← hid]
  rfl

theorem sound_after {m : Manager α} (h : m.Sound) (d : Deed α) : (m.after d).Sound := by
  cases d with
  | create => exact ⟨Ensemble.grown_perform h.grown .create, h.stamped⟩
  | ask i q =>
    cases he : m.engines[i]? with
    | none => simpa only [after, he] using h
    | some e =>
      obtain ⟨ops, hops⟩ := Caller.exists_run_of_ask (m.holder e) q
      simp only [after, he, hops]
      refine ⟨h.grown.set he ops, ?_⟩
      intro x hx
      rcases List.mem_append.mp hx with hx | hx
      · exact h.stamped x hx
      · obtain ⟨l, hl, rfl⟩ := List.mem_map.mp hx
        exact h.stamp_of_catch he (Option.mem_toList.mp hl)

theorem sound_run {m : Manager α} (h : m.Sound) (ds : List (Deed α)) : (m.run ds).Sound := by
  induction ds generalizing m with
  | nil => exact h
  | cons d ds ih => exact ih (sound_after h d)

/-- A cursor is refused by every engine but the one it was grabbed from. -/
theorem not_accepts_of_ne {m : Manager α} (h : m.Sound) {i : Nat} {e : Engine α}
    (he : m.engines[i]? = some e) {x : Nat × CurrentLine} (hx : x ∈ m.grabbed) (hi : x.1 ≠ i)
    {c : Cursor} (hc : c ∈ x.2.cursors) : e.playback.accepts c = false := by
  rw [← Bool.not_eq_true, Playback.accepts_iff]
  rintro ⟨-, hstamp⟩
  have hengine : e.playback.id = x.1 + 1 := by
    rw [← h.stamped x hx c hc, hstamp]
    rfl
  have hid := (h.grown.consistent he).2
  omega

theorem perform_of_not_accepts {e : Engine α} {c : Cursor} (h : e.playback.accepts c = false) :
    e.perform (.advance c) = ⟨e, [], .error (.staleCursor c.origin)⟩ :=
  congrArg e.broadcast (Playback.advance_of_not_accepts h)

/-- The lines that satisfy a condition keep their order. -/
theorem getElem?_filter {β : Type} {p : β → Bool} {xs : List β} {k : Nat} {x : β}
    (h : xs[k]? = some x) (hp : p x) : (xs.filter p)[(xs.take k).countP p]? = some x := by
  induction xs generalizing k with
  | nil => cases h
  | cons y xs ih =>
    cases k with
    | zero =>
      obtain rfl : y = x := Option.some.inj h
      simp [hp]
    | succ k =>
      have hx := ih (k := k) h
      cases hy : p y <;> simp [hy, hx]

theorem own_rank {m : Manager α} {i line : Nat} {l : CurrentLine}
    (h : m.grabbed[line]? = some (i, l)) : (m.own i)[m.rank i line]? = some l := by
  have hx := getElem?_filter (p := (·.1 = i)) h (by simp)
  rw [own, List.getElem?_map, rank, hx]
  rfl

theorem cursor?_holder (m : Manager α) (e : Engine α) (line : Nat) (slot : Slot) :
    (m.holder e).cursor? line slot = m.grabbed[line]?.bind (·.2.cursor? slot) := by
  simp only [Caller.cursor?, holder, List.getElem?_map, Option.bind_map]
  rfl

theorem errand_of_none {m : Manager α} {i line : Nat} {slot : Slot}
    (h : m.grabbed[line]?.bind (·.2.cursor? slot) = none) :
    m.errand i (.advance line slot) = .void := by
  cases hx : m.grabbed[line]? with
  | none => simp only [errand, hx]
  | some x =>
    have hl : x.2.cursor? slot = none := by rwa [hx, Option.bind_some] at h
    simp only [errand, hx, hl]

theorem errand_of_some {m : Manager α} (i : Nat) {j line : Nat} {l : CurrentLine} {slot : Slot}
    {c : Cursor} (hx : m.grabbed[line]? = some (j, l)) (hl : l.cursor? slot = some c) :
    m.errand i (.advance line slot) =
      if j = i then .own (.advance (m.rank i line) slot) else .refused c.origin := by
  simp only [errand, hx, hl]

/-- What an engine is asked by one who has all the lines, it could be asked by one who has its own
lines, unless it is to be refused. -/
theorem ask_holder {m : Manager α} (h : m.Sound) {i : Nat} {e : Engine α}
    (he : m.engines[i]? = some e) (q : Request α) :
    (m.holder e).ask q = (m.share i).answer (m.errand i q) ∧
      (m.share i).heed (m.errand i q) =
        ⟨((m.holder e).ask q).engine, m.own i ++ ((m.holder e).catch? q).toList⟩ := by
  have hshare : m.share i = ⟨e, m.own i⟩ := by rw [share, he]; rfl
  rw [hshare]
  cases q with
  | perform op plain => exact ⟨rfl, rfl⟩
  | grab => exact ⟨rfl, rfl⟩
  | advance line slot =>
    have hcatch : (m.holder e).catch? (.advance line slot) = none := rfl
    rw [hcatch, Option.toList_none, List.append_nil]
    cases hc : (m.holder e).cursor? line slot with
    | none =>
      rw [errand_of_none (m.cursor?_holder e line slot ▸ hc), Caller.ask_advance_of_none hc]
      exact ⟨rfl, rfl⟩
    | some c =>
      have hask : (m.holder e).ask (.advance line slot) = e.advance c :=
        Caller.ask_advance_of_some hc
      rw [cursor?_holder] at hc
      obtain ⟨⟨j, l⟩, hx, hl⟩ := Option.bind_eq_some_iff.mp hc
      rw [hask, errand_of_some i hx hl]
      by_cases hj : j = i
      · subst hj
        have hcursor : (⟨e, m.own j⟩ : Caller α).cursor? (m.rank j line) slot = some c := by
          rw [Caller.cursor?, own_rank hx, Option.bind_some, hl]
        have hown := Caller.ask_advance_of_some hcursor
        rw [if_pos rfl]
        exact ⟨hown.symm, by rw [Caller.heed, Caller.after, hown]; simp [Caller.catch?]⟩
      · have hmem : c ∈ l.cursors := CurrentLine.mem_cursors.mpr ⟨slot, hl⟩
        have hrefused : e.advance c = ⟨e, [], .error (.staleCursor c.origin)⟩ :=
          perform_of_not_accepts (not_accepts_of_ne h he (List.mem_of_getElem? hx) hj hmem)
        rw [if_neg hj, hrefused]
        exact ⟨rfl, rfl⟩

theorem own_append (m : Manager α) {i j : Nat} {es : List (Engine α)} (ls : List CurrentLine) :
    (⟨⟨es⟩, m.grabbed ++ ls.map ((j, ·))⟩ : Manager α).own i =
      m.own i ++ if j = i then ls else [] := by
  by_cases h : j = i <;> simp [own, h, Function.comp_def, List.filter_map]

/-- Of all that the manager does, only what is left for engine `i` concerns its share. -/
theorem share_after {m : Manager α} (h : m.Sound) (i : Nat) (d : Deed α) :
    (m.after d).share i = (m.share i).serve (m.errand? i d).toList := by
  cases d with
  | create =>
    -- An engine comes into being as it was expected to be.
    have hengine : (m.engines ++ [Engine.new (m.engines.length + 1)])[i]?.getD (.new (i + 1)) =
        m.engines[i]?.getD (.new (i + 1)) := by
      rcases Nat.lt_trichotomy i m.engines.length with hi | rfl | hi
      · rw [List.getElem?_append_left hi]
      · simp
      · rw [List.getElem?_append_right (by omega), List.getElem?_eq_none (by simp; omega),
          List.getElem?_eq_none (by omega)]
    exact congrArg (Caller.mk · (m.own i)) hengine
  | ask j q =>
    cases he : m.engines[j]? with
    | none =>
      have hnone : m.errand? i (.ask j q) = none := by
        rw [errand?]
        split
        · next hj => rw [← hj, he, Option.map_none]
        · rfl
      rw [hnone, after, he]
      rfl
    | some e =>
      have hj : j < m.engines.length := (List.getElem?_eq_some_iff.mp he).1
      simp only [after, he]
      rw [share, own_append]
      by_cases hi : j = i
      · subst hi
        have hsome : m.errand? j (.ask j q) = some (m.errand j q) := by simp [errand?, he]
        rw [hsome, List.getElem?_set_self hj, if_pos rfl]
        exact (ask_holder h he q).2.symm
      · have hnone : m.errand? i (.ask j q) = none := by simp [errand?, hi]
        rw [hnone, List.getElem?_set_ne hi, if_neg hi, List.append_nil]
        rfl

theorem outcome?_eq {m : Manager α} (h : m.Sound) (i : Nat) (d : Deed α) :
    m.outcome? i d = (m.errand? i d).map (m.share i).answer := by
  cases d with
  | create => rfl
  | ask j q =>
    simp only [outcome?, errand?]
    by_cases hj : j = i
    · subst hj
      cases he : m.engines[j]? with
      | none => simp
      | some e => simp [(ask_holder h he q).1]
    · simp [hj]

/-- So an engine of a manager runs through its errands, and through nothing else. -/
theorem share_run {m : Manager α} (h : m.Sound) (i : Nat) (ds : List (Deed α)) :
    (m.run ds).share i = (m.share i).serve (m.errands i ds) ∧
      m.outcomes i ds = (m.share i).answers (m.errands i ds) := by
  induction ds generalizing m with
  | nil => exact ⟨rfl, rfl⟩
  | cons d ds ih =>
    obtain ⟨hshare, houtcomes⟩ := ih (sound_after h d)
    rw [share_after h] at hshare houtcomes
    constructor
    · rw [errands, Caller.serve, List.foldl_append]
      exact hshare
    · rw [outcomes, errands, houtcomes, outcome?_eq h]
      cases m.errand? i d <;> rfl

/-- Of all that a manager asks of his engines, each one does what it would do alone, the cursors of
the others being refused. -/
theorem engines_isolated (program : List (Deed α)) (i k : Nat) :
    let m := ({} : Manager α).run program
    let errands := ({} : Manager α).errands i program
    let alone : Caller α := ⟨.new k, []⟩
    let r := Renaming.onto k (.new (i + 1))
    ({} : Manager α).outcomes i program = (alone.answers errands).map (·.rename r) ∧
      ∀ e, m.engines[i]? = some e →
        let f := (alone.serve errands).engine
        let p := e.playback
        let q := f.playback
        e = f.rename r ∧ m.own i = (alone.serve errands).grabbed.map (·.rename r) ∧
          (p.script? = q.script? ∧ p.lineCount = q.lineCount ∧ p.index? = q.index? ∧
            p.active = q.active ∧ p.speaker? = q.speaker? ∧ p.current = q.current.map (·.rename r) ∧
            (∀ c, p.accepts (c.rename r) = q.accepts c) ∧ e.subscribers = f.subscribers ∧
            e.summary = f.summary) ∧
          ∀ j l, (j, l) ∈ m.grabbed → j ≠ i → ∀ c ∈ l.cursors,
            p.accepts c = false ∧ e.perform (.advance c) = ⟨e, [], .error (.staleCursor c.origin)⟩ := by
  intro m errands alone r
  have hm : m.Sound := sound_run sound_empty program
  have hstart : ({} : Manager α).share i = alone.rename r := by
    simp [share, own, alone, r, Caller.rename, Engine.rename, Renaming.onto, Playback.rename,
      Engine.new, Playback.new]
  obtain ⟨hshare, houtcomes⟩ := share_run (sound_empty (α := α)) i program
  obtain ⟨hserve, hanswers⟩ := Caller.serve_rename r alone errands
  rw [hstart] at hshare houtcomes
  refine ⟨houtcomes.trans hanswers, ?_⟩
  intro e he f p q
  have hserved : m.share i = (alone.serve errands).rename r := hshare.trans hserve
  have hengine : m.share i = ⟨e, m.own i⟩ := by rw [share, he]; rfl
  have he' : e = f.rename r := by
    rw [hengine] at hserved
    exact congrArg Caller.engine hserved
  refine ⟨he', congrArg Caller.grabbed hserved, ?_, ?_⟩
  · have hp : p = q.rename r := congrArg Engine.playback he'
    rw [hp, he']
    exact ⟨rfl, rfl, rfl, rfl, rfl, Playback.rename_current r q, Playback.rename_accepts r q, rfl, rfl⟩
  · intro j l hl hj c hc
    have hn := not_accepts_of_ne hm he hl hj hc
    exact ⟨hn, perform_of_not_accepts hn⟩

/-- Two engines show the same line of the same script in the same epoch. The second one refuses the
cursor of the first and then moves on by its own, as it would alone. -/
theorem twin_cursor_refused :
    let s : Script := { lines := [{ text := "Halt!" }, { text := "Pass." }] }
    let program : List (Deed Unit) := [.create, .create, .ask 0 (.perform (.load s) rfl),
      .ask 1 (.perform (.load s) rfl), .ask 0 .grab, .ask 1 .grab, .ask 1 (.advance 0 .main),
      .ask 0 (.perform .reset rfl), .ask 1 (.advance 1 .main)]
    let errands : List (Errand Unit) := [.own (.perform (.load s) rfl), .own .grab, .refused 0,
      .own (.advance 0 .main)]
    let m := ({} : Manager Unit).run program
    let alone : Caller Unit := ⟨.new 1, []⟩
    ({} : Manager Unit).errands 1 program = errands ∧
      (({} : Manager Unit).outcomes 1 program).map (·.result) =
        (alone.answers errands).map (·.result) ∧
      (alone.answers errands).map (·.result) = [.ok (), .ok (), .error (.staleCursor 0), .ok ()] ∧
      ∃ e, m.engines[1]? = some e ∧ e.playback.index? = some 1 ∧
        (alone.serve errands).engine.playback.index? = some 1 := by
  intro s program errands m alone
  have herrands : ({} : Manager Unit).errands 1 program = errands := rfl
  obtain ⟨houtcomes, hengine⟩ := engines_isolated program 1 1
  have hresults := congrArg (List.map (·.result)) houtcomes
  rw [herrands, List.map_map] at hresults
  have hindex : m.engines[1]?.map (·.playback.index?) = some (some 1) := by decide +kernel
  obtain ⟨e, he, hindex⟩ := Option.map_eq_some_iff.mp hindex
  obtain ⟨-, -, ⟨-, -, hsame, -⟩, -⟩ := hengine e he
  rw [herrands] at hsame
  exact ⟨herrands, hresults, by decide +kernel, e, he, hindex, hsame.symm.trans hindex⟩

end Manager

end Dialogue
