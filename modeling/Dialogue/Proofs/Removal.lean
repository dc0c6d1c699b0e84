import Mathlib.Data.List.Induction
import Dialogue.Proofs.Delivery
import Dialogue.Proofs.Ensemble

/-!
# Whom a number removes

A subscription number does not tell which engine gave it out. Every engine takes it for a number of
its own: it removes the subscriber to whom it has given that number itself, if he is still there, and
nobody else.
-/
namespace Dialogue

namespace Engine

variable {α : Type}

/-- Unsubscribing takes this subscriber off the list, and nobody else. -/
def Removes (e : Engine α) (s : Subscriber α) : Prop :=
  ∃ xs ys, e.subscribers = xs ++ s :: ys ∧ (e.unsubscribe s.id).subscribers = xs ++ ys

theorem removes_of_mem {e : Engine α} (h : e.Numbered) {s : Subscriber α}
    (hs : s ∈ e.subscribers) : e.Removes s := by
  obtain ⟨xs, ys, hsplit⟩ := List.append_of_mem hs
  exact ⟨xs, ys, hsplit, unsubscribe_of_split h hsplit⟩

theorem unsubscribe_of_not_subscribed {e : Engine α} {n : Nat} (h : e.subscribed n = false) :
    e.unsubscribe n = e := by
  have hfilter : e.subscribers.filter (·.id ≠ n) = e.subscribers := by
    refine List.filter_eq_self.mpr fun s hs => ?_
    rw [decide_eq_true_eq]
    rintro rfl
    have hthere : e.subscribed s.id := subscribed_iff.mpr ⟨s, hs, rfl⟩
    rw [h] at hthere
    cases hthere
  rw [unsubscribe, hfilter]

/-- Who has another number stays and hears what he listens to. -/
theorem stays_of_ne {e : Engine α} (h : e.Numbered) {s : Subscriber α} (hs : s ∈ e.subscribers)
    {n : Nat} (other : s.id ≠ n) :
    s ∈ (e.unsubscribe n).subscribers ∧ ∀ ops, (∀ op ∈ ops, op ≠ .unsubscribe s.id) →
      heardBy s.id ((e.unsubscribe n).calls ops) =
        ((e.unsubscribe n).announced ops).filter (s.channel.hears ·.event) := by
  have hmem : s ∈ (e.unsubscribe n).subscribers := List.mem_filter.mpr ⟨hs, by simpa using other⟩
  exact ⟨hmem, fun ops stays => heardBy_calls (numbered_unsubscribe h n) hmem stays⟩

/-- A number that was just given out stands for somebody until it is unsubscribed. -/
theorem subscribed_run_iff {e : Engine α} (channel : Channel) (handler : α)
    (ops : List (Operation α)) :
    ((e.subscribe channel handler).run ops).subscribed (e.issued + 1) ↔
      ∀ op ∈ ops, op ≠ .unsubscribe (e.issued + 1) := by
  rw [subscribed_iff]
  constructor
  · rintro ⟨s, hs, hid⟩
    rcases mem_subscribers_run_iff.mp hs with ⟨-, hops⟩ | ⟨before, _, _, _, -, rfl, -⟩
    · rwa [hid] at hops
    · -- A later number is greater.
      have hissued := (numbers_eq_range' (e.subscribe channel handler) before).2
      have hsubscribe : (e.subscribe channel handler).issued = e.issued + 1 := rfl
      simp only at hid
      omega
  · intro hops
    exact ⟨⟨e.issued + 1, channel, handler⟩, mem_subscribers_run_iff.mpr
      (.inl ⟨List.mem_append_right _ List.mem_cons_self, hops⟩), rfl⟩

end Engine

namespace Ensemble

open Engine

variable {α : Type} {acts : List (Act α)} {i : Nat} {s : Subscriber α} {e : Engine α}

/-- In the course of some acts engine `i` has given a subscriber his number; `since` is what was done
after that. -/
def Enrolled (acts : List (Act α)) (i : Nat) (s : Subscriber α) (since : List (Act α)) : Prop :=
  ∃ before e, acts = before ++ .tell i (.subscribe s.channel s.handler) :: since ∧
    (({} : Ensemble α).run before).engines[i]? = some e ∧
      s.id = (e.subscribe s.channel s.handler).issued

/-- Whether nobody asks engine `i` to unsubscribe number `n`. -/
def Spared (i n : Nat) (acts : List (Act α)) : Prop :=
  ∀ act ∈ acts, act.for? i ≠ some (.unsubscribe n)

theorem numbered_of_there (there : (({} : Ensemble α).run acts).engines[i]? = some e) :
    e.Numbered := by
  obtain ⟨ops, rfl⟩ := grown_run grown_empty acts i e there
  exact numbered_run (numbered_new (i + 1)) ops

theorem spared_iff {n : Nat} {acts : List (Act α)} :
    Spared i n acts ↔ ∀ op ∈ acts.filterMap (·.for? i), op ≠ .unsubscribe n := by
  simp only [Spared, List.mem_filterMap]
  constructor
  · rintro h op ⟨act, hact, hop⟩ rfl
    exact h act hact hop
  · intro h act hact hop
    exact h _ ⟨act, hact, hop⟩ rfl

/-- An engine that has given out a number goes on from there. -/
theorem Enrolled.exists_run {since : List (Act α)} (h : Enrolled acts i s since)
    (there : (({} : Ensemble α).run acts).engines[i]? = some e) :
    ∃ e₀ : Engine α, s = ⟨e₀.issued + 1, s.channel, s.handler⟩ ∧
      e = (e₀.subscribe s.channel s.handler).run (since.filterMap (·.for? i)) := by
  obtain ⟨before, e₀, rfl, hbefore, hid⟩ := h
  have hrun := engines_run hbefore (.tell i (.subscribe s.channel s.handler) :: since)
  rw [run_append, hrun] at there
  have hfor : (Act.tell i (.subscribe s.channel s.handler)).for? i =
      some (.subscribe s.channel s.handler) := if_pos rfl
  rw [List.filterMap_cons_some hfor] at there
  exact ⟨e₀, by rw [← show s.id = e₀.issued + 1 from hid], (Option.some.inj there).symm⟩

/-- So the number stands for somebody exactly as long as nobody asks to unsubscribe it. -/
theorem Enrolled.subscribed_iff {since : List (Act α)} (h : Enrolled acts i s since)
    (there : (({} : Ensemble α).run acts).engines[i]? = some e) :
    e.subscribed s.id ↔ Spared i s.id since := by
  obtain ⟨e₀, hs, rfl⟩ := h.exists_run there
  rw [hs, spared_iff]
  exact subscribed_run_iff s.channel s.handler _

/-- And nobody else has it. -/
theorem Enrolled.removes {since : List (Act α)} (h : Enrolled acts i s since)
    (there : (({} : Ensemble α).run acts).engines[i]? = some e) (listed : e.subscribed s.id) :
    e.Removes s := by
  have hspared := spared_iff.mp ((h.subscribed_iff there).mp listed)
  obtain ⟨e₀, hs, rfl⟩ := h.exists_run there
  refine removes_of_mem (numbered_of_there there) (mem_subscribers_run_iff.mpr (.inl ⟨?_, hspared⟩))
  rw [hs]
  exact List.mem_append_right _ List.mem_cons_self

theorem Enrolled.concat {since : List (Act α)} (h : Enrolled acts i s since) (act : Act α) :
    Enrolled (acts ++ [act]) i s (since ++ [act]) := by
  obtain ⟨before, e, rfl, hbefore, hid⟩ := h
  exact ⟨before, e, by rw [List.append_assoc, List.cons_append], hbefore, hid⟩

/-- An engine that has just come into being has no subscribers. -/
theorem subscribers_of_created {w : Ensemble α} {act : Act α} (absent : w.engines[i]? = none)
    (there : (w.perform act).engines[i]? = some e) : e.subscribers = [] := by
  cases act with
  | create =>
    have hlength : w.engines.length ≤ i := List.getElem?_eq_none_iff.mp absent
    rw [perform, List.getElem?_append_right hlength, List.getElem?_singleton] at there
    split at there
    · rw [← Option.some.inj there]
      rfl
    · cases there
  | tell j op =>
    rw [perform, List.getElem?_modify, absent] at there
    cases there

theorem exists_of_for? {act : Act α} {op : Operation α} (h : act.for? i = some op) :
    act = .tell i op := by
  cases act with
  | create => cases h
  | tell j op' =>
    obtain ⟨rfl, hop⟩ := Option.ite_none_right_eq_some.mp h
    rw [Option.some.inj hop]

/-- Whoever is on the list of an engine was given his number by it. -/
theorem exists_enrolled (there : (({} : Ensemble α).run acts).engines[i]? = some e)
    (hs : s ∈ e.subscribers) : ∃ since, Enrolled acts i s since := by
  induction acts using List.reverseRecOn generalizing e with
  | nil => cases there
  | append_singleton acts act ih =>
    rw [run_append, run_cons, run_nil] at there
    cases hbefore : (({} : Ensemble α).run acts).engines[i]? with
    | none =>
      rw [subscribers_of_created hbefore there] at hs
      cases hs
    | some e₀ =>
      rw [engines_perform hbefore] at there
      obtain rfl := Option.some.inj there
      cases hact : act.for? i with
      | none =>
        rw [hact] at hs
        obtain ⟨since, hsince⟩ := ih hbefore hs
        exact ⟨since ++ [act], hsince.concat act⟩
      | some op =>
        rw [hact] at hs
        rcases mem_subscribers_perform_iff.mp hs with ⟨hs, -⟩ | ⟨channel, handler, rfl, rfl⟩
        · obtain ⟨since, hsince⟩ := ih hbefore hs
          exact ⟨since ++ [act], hsince.concat act⟩
        · obtain rfl := exists_of_for? hact
          exact ⟨[], acts, e₀, rfl, hbefore, rfl⟩

/-- An engine has somebody under a number if and only if it has given the number out itself and has
not been asked to unsubscribe it since. -/
theorem subscribed_iff_enrolled (there : (({} : Ensemble α).run acts).engines[i]? = some e)
    {n : Nat} : e.subscribed n ↔
      ∃ s since, Enrolled acts i s since ∧ s.id = n ∧ Spared i n since := by
  constructor
  · intro listed
    obtain ⟨s, hs, rfl⟩ := Engine.subscribed_iff.mp listed
    obtain ⟨since, hsince⟩ := exists_enrolled there hs
    exact ⟨s, since, hsince, rfl, (hsince.subscribed_iff there).mp listed⟩
  · rintro ⟨s, since, hsince, rfl, hspared⟩
    exact (hsince.subscribed_iff there).mpr hspared

theorem perform_of_ne {w : Ensemble α} {j : Nat} (h : i ≠ j) (op : Operation α) :
    (w.perform (.tell j op)).engines[i]? = w.engines[i]? := by
  simp [perform, h.symm]

/-- The number that the first engine has given out removes the subscriber of the second, who does
not hear of the script that is loaded next. -/
theorem stranger_removed :
    let acts : List (Act String) :=
      [.create, .create, .tell 0 (.subscribe .all "log"), .tell 1 (.subscribe .all "view")]
    let next : List (Operation String) := [.load { lines := [{ text := "Hello." }] }]
    let heard (calls : List (Call String)) := calls.map (·.subscriber.handler)
    (∃ f, (({} : Ensemble String).run acts).engines[1]? = some f ∧ f.subscribed 1 ∧
      heard (f.calls next) = ["view"] ∧ (f.unsubscribe 1).subscribers = [] ∧
      heard ((f.unsubscribe 1).calls next) = []) ∧
    ¬ ∀ a b s since f, Enrolled acts a s since → a ≠ b →
      (({} : Ensemble String).run acts).engines[b]? = some f →
        f.subscribed s.id = false ∧ ∀ t ∈ f.subscribers, t ∈ (f.unsubscribe s.id).subscribers ∧
          heardBy t.id ((f.unsubscribe s.id).calls next) = heardBy t.id (f.calls next) := by
  intro acts next heard
  refine ⟨⟨_, rfl, rfl, rfl, rfl, rfl⟩, fun apart => ?_⟩
  have given : Enrolled acts 0 ⟨1, .all, "log"⟩ [.tell 1 (.subscribe .all "view")] :=
    ⟨[.create, .create], .new 1, rfl, rfl, rfl⟩
  have hkept := (apart 0 1 _ _ _ given Nat.zero_ne_one rfl).1
  cases hkept

/-- An engine that is asked to unsubscribe a number says yes exactly if it has given it out and not
been asked before, and then takes off its own subscriber of that number. -/
theorem number_removes_own {a b : Nat} {since : List (Act α)} (given : Enrolled acts a s since)
    {f : Engine α} (there : (({} : Ensemble α).run acts).engines[b]? = some f) :
    (f.subscribed s.id ↔ (f.unsubscribe s.id).subscribers.length ≠ f.subscribers.length) ∧
      (a = b → (f.subscribed s.id ↔ Spared a s.id since) ∧ (f.subscribed s.id → f.Removes s)) ∧
      (f.subscribed s.id ↔
        ∃ t since', Enrolled acts b t since' ∧ t.id = s.id ∧ Spared b s.id since') ∧
      (f.subscribed s.id → ∃ t since', Enrolled acts b t since' ∧ t.id = s.id ∧ f.Removes t ∧
        ∀ later, ∀ c ∈ (f.unsubscribe s.id).calls later, c.subscriber.id ≠ s.id) ∧
      (f.subscribed s.id = false → f.unsubscribe s.id = f) ∧
      (∀ t ∈ f.subscribers, t.id ≠ s.id → t ∈ (f.unsubscribe s.id).subscribers ∧
        ∀ later, (∀ op ∈ later, op ≠ .unsubscribe t.id) →
          heardBy t.id ((f.unsubscribe s.id).calls later) =
            ((f.unsubscribe s.id).announced later).filter (t.channel.hears ·.event)) ∧
      ∀ c, c ≠ b →
        ((({} : Ensemble α).run acts).perform (.tell b (.unsubscribe s.id))).engines[c]? =
          (({} : Ensemble α).run acts).engines[c]? := by
  have hf : f.Numbered := numbered_of_there there
  refine ⟨length_unsubscribe_ne_iff.symm, ?_, subscribed_iff_enrolled there, ?_,
    unsubscribe_of_not_subscribed, fun t ht hne => stays_of_ne hf ht hne,
    fun c hc => perform_of_ne hc _⟩
  · rintro rfl
    exact ⟨given.subscribed_iff there, given.removes there⟩
  · intro listed
    obtain ⟨t, since', hsince, hid, -⟩ := (subscribed_iff_enrolled there).mp listed
    obtain ⟨u, hu, huid⟩ := Engine.subscribed_iff.mp listed
    refine ⟨t, since', hsince, hid, hsince.removes there (by rwa [hid]), fun later => ?_⟩
    have hgiven : s.id ≤ (f.unsubscribe s.id).issued := huid ▸ hf.issued u hu
    exact not_called_of_gone hgiven (subscribed_unsubscribe f s.id) later

/-- The first engine's number one removes its own subscriber. On the second engine it stands for
nobody once the subscriber of that number is gone, and the one who came next stays. -/
theorem log_number_removes_own :
    let log : Subscriber String := ⟨1, .all, "log"⟩
    let notes : Subscriber String := ⟨2, .message, "notes"⟩
    let since : List (Act String) := [.tell 1 (.subscribe .all "view"),
      .tell 1 (.subscribe .message "notes"), .tell 1 (.unsubscribe 1)]
    let acts := [.create, .create, .tell 0 (.subscribe .all "log")] ++ since
    let w := ({} : Ensemble String).run acts
    Enrolled acts 0 log since ∧
      (∃ e, w.engines[0]? = some e ∧ e.subscribed 1 ∧ e.Removes log) ∧
      ∃ f, w.engines[1]? = some f ∧ f.unsubscribe 1 = f ∧ notes ∈ (f.unsubscribe 1).subscribers := by
  intro log notes since acts w
  have given : Enrolled acts 0 log since := ⟨[.create, .create], .new 1, rfl, rfl, rfl⟩
  obtain ⟨-, hown, -⟩ := number_removes_own given (b := 0) rfl
  obtain ⟨-, -, -, -, hidle, hothers, -⟩ := number_removes_own given (b := 1) rfl
  have hspared : Spared 0 1 since := by simp [Spared, since, Act.for?]
  have hlisted := (hown rfl).1.mpr hspared
  exact ⟨given, ⟨_, rfl, hlisted, (hown rfl).2 hlisted⟩, _, rfl, hidle rfl,
    (hothers notes List.mem_cons_self (by decide)).1⟩

end Ensemble

end Dialogue
