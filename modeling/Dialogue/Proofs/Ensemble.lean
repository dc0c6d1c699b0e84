import Dialogue.Proofs.Staleness

/-!
# Engines side by side

Engines are numbered in the order of their creation and work on by themselves, however the calls to
them are mixed. Number and epoch together tell every line that ever came on show from every other.
-/
namespace Dialogue

structure Ensemble (α : Type) where
  engines : List (Engine α) := []

namespace Ensemble

variable {α : Type}

inductive Act (α : Type) where
  | create
  | tell (index : Nat) (op : Operation α)

/-- The operation that an act asks of engine `i`. -/
def Act.for? (i : Nat) : Act α → Option (Operation α)
  | .create => none
  | .tell j op => if j = i then some op else none

/-- An act on an engine that is not there changes nothing. -/
def perform (w : Ensemble α) : Act α → Ensemble α
  | .create => ⟨w.engines ++ [Engine.new (w.engines.length + 1)]⟩
  | .tell i op => ⟨w.engines.modify i fun e => (e.perform op).engine⟩

def run (w : Ensemble α) (acts : List (Act α)) : Ensemble α := acts.foldl perform w

/-- Whether an act makes engine `i` leave the line on show. -/
def leaves (w : Ensemble α) (i : Nat) (act : Act α) : Bool :=
  match w.engines[i]?, act.for? i with
  | some e, some op => e.playback.leaves op
  | _, _ => false

def departs (w : Ensemble α) (i : Nat) : List (Act α) → Bool
  | [] => false
  | act :: acts => w.leaves i act || (w.perform act).departs i acts

/-- The states in which engine `i` can be looked at: after a list of acts, or from inside a handler
while it does the last of them. -/
inductive Glimpse (w : Ensemble α) : List (Act α) → Nat → Playback → Prop
  | after (acts : List (Act α)) {i : Nat} {e : Engine α}
      (there : (w.run acts).engines[i]? = some e) : Glimpse w acts i e.playback
  | inside (acts : List (Act α)) {i : Nat} {e : Engine α}
      (there : (w.run acts).engines[i]? = some e) (op : Operation α) {call : Call α}
      (called : call ∈ (e.perform op).calls) :
      Glimpse w (acts ++ [.tell i op]) i call.seen.playback

@[simp] theorem run_nil (w : Ensemble α) : w.run [] = w := rfl

@[simp] theorem run_cons (w : Ensemble α) (act : Act α) (acts : List (Act α)) :
    w.run (act :: acts) = (w.perform act).run acts := rfl

theorem run_append (w : Ensemble α) (xs ys : List (Act α)) :
    w.run (xs ++ ys) = (w.run xs).run ys := by
  simp [run]

theorem engines_perform {w : Ensemble α} {i : Nat} {e : Engine α} (h : w.engines[i]? = some e)
    (act : Act α) :
    (w.perform act).engines[i]? = some (e.run (act.for? i).toList) := by
  cases act with
  | create =>
    have hi : i < w.engines.length := (List.getElem?_eq_some_iff.mp h).1
    simp [perform, Act.for?, List.getElem?_append_left hi, h]
  | tell j op =>
    by_cases hj : j = i
    · simp [perform, Act.for?, hj, h]
    · simp [perform, Act.for?, hj, h]

/-- An engine of an ensemble runs through what is asked of it, and through nothing else. -/
theorem engines_run {w : Ensemble α} {i : Nat} {e : Engine α} (h : w.engines[i]? = some e)
    (acts : List (Act α)) :
    (w.run acts).engines[i]? = some (e.run (acts.filterMap (·.for? i))) := by
  induction acts generalizing w e with
  | nil => exact h
  | cons act acts ih =>
    rw [run_cons, ih (engines_perform h act), List.filterMap_cons]
    cases act.for? i <;> rfl

theorem departs_eq {w : Ensemble α} {i : Nat} {e : Engine α} (h : w.engines[i]? = some e)
    (acts : List (Act α)) : w.departs i acts = e.departs (acts.filterMap (·.for? i)) := by
  induction acts generalizing w e with
  | nil => rfl
  | cons act acts ih =>
    rw [departs, ih (engines_perform h act), List.filterMap_cons]
    simp only [leaves, h]
    cases act.for? i <;> rfl

/-- Every engine has the number of its place and began with nothing. -/
def Grown (w : Ensemble α) : Prop :=
  ∀ i e, w.engines[i]? = some e → ∃ ops, e = (Engine.new (i + 1)).run ops

theorem grown_empty : ({} : Ensemble α).Grown := by
  intro i e h
  cases h

theorem grown_perform {w : Ensemble α} (h : w.Grown) (act : Act α) : (w.perform act).Grown := by
  intro i e he
  cases h₀ : w.engines[i]? with
  | some e₀ =>
    obtain ⟨ops, rfl⟩ := h i e₀ h₀
    rw [engines_perform h₀ act] at he
    exact ⟨ops ++ (act.for? i).toList, by rw [Engine.run_append, Option.some.inj he]⟩
  | none =>
    -- The engine has just come into being, so it is the last one.
    cases act with
    | create =>
      have hlen : w.engines.length ≤ i := List.getElem?_eq_none_iff.mp h₀
      simp only [perform, List.getElem?_append_right hlen, List.getElem?_singleton] at he
      split at he
      · next hi =>
        have hi : i = w.engines.length := by omega
        exact ⟨[], by rw [hi, ← Option.some.inj he]; rfl⟩
      · cases he
    | tell j op =>
      rw [perform, List.getElem?_modify, h₀] at he
      cases he

theorem grown_run {w : Ensemble α} (h : w.Grown) (acts : List (Act α)) : (w.run acts).Grown := by
  induction acts generalizing w with
  | nil => exact h
  | cons act acts ih => exact ih (grown_perform h act)

theorem Grown.consistent {w : Ensemble α} (h : w.Grown) {i : Nat} {e : Engine α}
    (he : w.engines[i]? = some e) : e.playback.Consistent ∧ e.playback.id = i + 1 := by
  obtain ⟨ops, rfl⟩ := h i e he
  exact ⟨Playback.consistent_run (Playback.consistent_new (i + 1)) ops, Playback.run_id _ ops⟩

/-- One engine may go on while the others wait. -/
theorem Grown.set {w : Ensemble α} (h : w.Grown) {i : Nat} {e : Engine α}
    (he : w.engines[i]? = some e) (more : List (Operation α)) :
    Grown ⟨w.engines.set i (e.run more)⟩ := by
  intro j f hf
  have hf : (w.engines.set i (e.run more))[j]? = some f := hf
  by_cases hij : i = j
  · subst hij
    obtain ⟨ops, rfl⟩ := h i e he
    rw [List.getElem?_set_self (List.getElem?_eq_some_iff.mp he).1] at hf
    exact ⟨ops ++ more, by rw [Engine.run_append, Option.some.inj hf]⟩
  · rw [List.getElem?_set_ne hij] at hf
    exact h j f hf

/-- A handler sees its engine as the act leaves it. -/
theorem exists_of_glimpse {w : Ensemble α} {acts : List (Act α)} {i : Nat} {p : Playback}
    (h : w.Glimpse acts i p) : ∃ e, (w.run acts).engines[i]? = some e ∧ p = e.playback := by
  cases h with
  | after _ there => exact ⟨_, there, rfl⟩
  | inside xs there op called =>
    refine ⟨_, ?_, Engine.seen_of_mem_calls called⟩
    rw [run_append, run_cons, run_nil, engines_perform there]
    simp [Act.for?]

section Stamps

variable {first later : List (Act α)} {i j : Nat} {p q : Playback}

theorem consistent_of_glimpse (h : ({} : Ensemble α).Glimpse first i p) :
    p.Consistent ∧ p.id = i + 1 := by
  obtain ⟨e, he, rfl⟩ := exists_of_glimpse h
  exact (grown_run grown_empty first).consistent he

theorem eq_of_not_departs (hp : ({} : Ensemble α).Glimpse first i p)
    (hq : ({} : Ensemble α).Glimpse (first ++ later) i q)
    (h : (({} : Ensemble α).run first).departs i later = false) : q = p := by
  obtain ⟨e, he, rfl⟩ := exists_of_glimpse hp
  obtain ⟨f, hf, rfl⟩ := exists_of_glimpse hq
  rw [run_append, engines_run he] at hf
  rw [departs_eq he] at h
  rw [← Option.some.inj hf, Engine.run_of_not_departs h]

theorem epoch_lt_of_departs (hp : ({} : Ensemble α).Glimpse first i p)
    (hq : ({} : Ensemble α).Glimpse (first ++ later) i q)
    (h : (({} : Ensemble α).run first).departs i later) : p.epoch < q.epoch := by
  obtain ⟨e, he, rfl⟩ := exists_of_glimpse hp
  obtain ⟨f, hf, rfl⟩ := exists_of_glimpse hq
  rw [run_append, engines_run he] at hf
  rw [departs_eq he] at h
  rw [← Option.some.inj hf]
  exact Engine.epoch_lt_run h

/-- Two looks show the same stamp only if they are at one engine that has not moved in between. -/
theorem stamp_eq_iff (hp : ({} : Ensemble α).Glimpse first i p)
    (hq : ({} : Ensemble α).Glimpse (first ++ later) j q) :
    p.stamp = q.stamp ↔ i = j ∧ (({} : Ensemble α).run first).departs i later = false := by
  constructor
  · intro h
    have hid : p.id = q.id := congrArg Stamp.engine h
    have hepoch : p.epoch = q.epoch := congrArg Stamp.epoch h
    rw [(consistent_of_glimpse hp).2, (consistent_of_glimpse hq).2] at hid
    obtain rfl : i = j := by omega
    refine ⟨rfl, ?_⟩
    cases hd : (({} : Ensemble α).run first).departs i later with
    | false => rfl
    | true =>
      have hlt := epoch_lt_of_departs hp hq hd
      omega
  · rintro ⟨rfl, hd⟩
    rw [eq_of_not_departs hp hq hd]

/-- A cursor is accepted exactly while it is on show, and two lines are equal exactly if they were
on show at one engine that did not leave its line in between. -/
theorem stamp_tells_line (first later : List (Act α)) {i j : Nat} {p q : Playback}
    {l : CurrentLine} (seen : ({} : Ensemble α).Glimpse first i p) (shown : p.current = some l)
    (seenLater : ({} : Ensemble α).Glimpse (first ++ later) j q) :
    (∀ c ∈ l.cursors, q.accepts c ↔ ∃ m, q.current = some m ∧ c ∈ m.cursors) ∧
      ∀ m, q.current = some m →
        (l = m ↔ i = j ∧ (({} : Ensemble α).run first).departs i later = false) := by
  have hp : p.Consistent := (consistent_of_glimpse seen).1
  have hq : q.Consistent := (consistent_of_glimpse seenLater).1
  constructor
  · intro c hc
    have hstamp : c.stamp = p.stamp :=
      (Playback.accepts_iff.mp (Playback.accepts_of_mem_current hp shown hc)).2
    constructor
    · intro ha
      have hpq : p.stamp = q.stamp := by rw [← hstamp, (Playback.accepts_iff.mp ha).2]
      obtain ⟨rfl, hd⟩ := (stamp_eq_iff seen seenLater).mp hpq
      exact ⟨l, by rw [eq_of_not_departs seen seenLater hd, shown], hc⟩
    · rintro ⟨m, hm, hc⟩
      exact Playback.accepts_of_mem_current hq hm hc
  · intro m hm
    rw [← stamp_eq_iff seen seenLater]
    constructor
    · rintro rfl
      have hmain : l.main ∈ l.cursors := List.mem_cons_self
      rw [← (Playback.accepts_iff.mp (Playback.accepts_of_mem_current hp shown hmain)).2,
        (Playback.accepts_iff.mp (Playback.accepts_of_mem_current hq hm hmain)).2]
    · intro h
      obtain ⟨rfl, hd⟩ := (stamp_eq_iff seen seenLater).mp h
      rw [eq_of_not_departs seen seenLater hd, shown] at hm
      exact Option.some.inj hm

/-- Two engines that play the same script show different lines. -/
theorem twin_lines_differ :
    let s : Script := { lines := [{ text := "Halt!" }] }
    let acts : List (Act Unit) := [.create, .create, .tell 0 (.load s), .tell 1 (.load s)]
    ∃ p q l m, ({} : Ensemble Unit).Glimpse acts 0 p ∧ p.current = some l ∧
      ({} : Ensemble Unit).Glimpse (acts ++ []) 1 q ∧ q.current = some m ∧
      l ≠ m ∧ ¬ q.accepts l.main := by
  intro s acts
  have seen : ({} : Ensemble Unit).Glimpse acts 0 _ := .after acts rfl
  have seenLater : ({} : Ensemble Unit).Glimpse (acts ++ []) 1 _ := .after (acts ++ []) rfl
  obtain ⟨accepted, equal⟩ := stamp_tells_line acts [] seen rfl seenLater
  refine ⟨_, _, _, _, seen, rfl, seenLater, rfl, ?_, ?_⟩
  · intro h
    exact absurd ((equal _ rfl).mp h).1 (by decide)
  · rw [accepted _ List.mem_cons_self]
    rintro ⟨m, hm, hc⟩
    cases hm
    exact absurd hc (by decide)

end Stamps

end Ensemble

end Dialogue
