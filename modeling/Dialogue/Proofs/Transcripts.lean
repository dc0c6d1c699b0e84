import Dialogue.Proofs.Commands

/-!
# Transcripts are complete

A transcript holds what its recorder has heard and nobody has been handed yet. So what has been
handed out of it, together with what it holds, is what was announced while the recorder was there,
whoever else was recording, whenever the transcripts were looked at or emptied.
-/
namespace Dialogue

namespace Engine

variable {α : Type}

/-- Whoever is called under the number of a subscriber is that subscriber. -/
theorem subscriber_of_mem_calls {e : Engine α} (h : e.Numbered) {s : Subscriber α}
    (hs : s ∈ e.subscribers) (ops : List (Operation α)) :
    ∀ c ∈ e.calls ops, c.subscriber.id = s.id → c.subscriber = s := by
  induction ops generalizing e with
  | nil => exact List.forall_mem_nil _
  | cons op ops ih =>
    rw [calls_cons]
    refine List.forall_mem_append.mpr ⟨?_, ?_⟩
    · intro c hc hid
      obtain ⟨m, -, hc⟩ := List.mem_flatMap.mp hc
      obtain ⟨t, ht, -, rfl⟩ := mem_deliver.mp hc
      have hsame : t ∈ e.subscribers.filter (·.id = s.id) := List.mem_filter.mpr ⟨ht, by simpa⟩
      rw [filter_id_eq h hs] at hsame
      exact List.mem_singleton.mp hsame
    · cases hop : op.removes s.id with
      | true =>
        obtain rfl := Operation.removes_iff.mp hop
        have given : s.id ≤ (e.unsubscribe s.id).issued := h.issued s hs
        have hgone := not_called_of_gone given (subscribed_unsubscribe e s.id) ops
        exact fun c hc hid => absurd hid (hgone c hc)
      | false =>
        have hstays : op ≠ .unsubscribe s.id := by
          rintro rfl
          simp [Operation.removes] at hop
        exact ih (numbered_perform h op) (mem_subscribers_perform hs hstays)

end Engine

namespace Stage

/-- The entries in an answer. -/
def Answer.handed : Answer → List Entry
  | .entries es => es
  | _ => []

/-- Whether a command empties the transcript of number `k`. -/
def empties (s : Stage) (k : Nat) : Command → Bool
  | .drain name => s.transcripts.find? name = some k
  | _ => false

/-- What is handed out of the transcript of number `k` by the answers to some commands. -/
def drained (s : Stage) (k : Nat) : List Command → List Entry
  | [] => []
  | c :: cs =>
    (if s.empties k c then (s.step 0 c).2.1.handed else []) ++ (s.step 0 c).1.drained k cs

theorem empties_iff {s : Stage} {k : Nat} {c : Command} :
    s.empties k c ↔ ∃ name, c = .drain name ∧ s.transcripts.find? name = some k := by
  cases c <;> simp [empties]

section Reading

variable {s : Stage} {e : Engine Handler} {name : String} {k : Nat}

theorem step_entries (here : s.engines.find? 0 = some e)
    (stands : s.transcripts.find? name = some k) :
    s.step 0 (.entries name) = (s, .entries (s.buffer k), []) := by
  simp only [step, here, obey, withTranscript, stands]
  rfl

theorem step_length (here : s.engines.find? 0 = some e)
    (stands : s.transcripts.find? name = some k) :
    s.step 0 (.length name) = (s, .length (s.buffer k).length (s.buffer k).isEmpty, []) := by
  simp only [step, here, obey, withTranscript, stands]
  rfl

theorem step_drain (here : s.engines.find? 0 = some e)
    (stands : s.transcripts.find? name = some k) :
    s.step 0 (.drain name) =
      ({ s with recorded := s.recorded.insert k [] }, .entries (s.buffer k), []) := by
  simp only [step, here, obey, withTranscript, stands]
  rfl

end Reading

theorem buffer_insert (s : Stage) (k : Nat) (es : List Entry) (j : Nat) :
    buffer { s with recorded := s.recorded.insert k es } j = if j = k then es else s.buffer j := by
  rw [buffer, Table.find?_insert]
  split <;> rfl

/-- What a command hands out and leaves was there or is written by the calls that it makes. -/
theorem drained_step {s : Stage} {e : Engine Handler} (h : s.Sound e) {c : Command}
    (keeps : c.replaces = false) {k : Nat} (given : k < s.nextHandler) :
    (if s.empties k c then (s.step 0 c).2.1.handed else []) ++ (s.step 0 c).1.buffer k =
      s.buffer k ++ written k (e.calls (s.operation? c).toList) := by
  have hact := act_step h.here keeps
  by_cases hempties : s.empties k c
  · obtain ⟨name, rfl, stands⟩ := empties_iff.mp hempties
    rw [if_pos hempties, step_drain h.here stands, buffer_insert, if_pos rfl]
    rfl
  · rw [if_neg hempties, List.nil_append]
    generalize (s.step 0 c).1 = t at hact
    cases hact with
    | played op asked plays =>
      have hcalls : e.calls [op] = (e.perform op).calls := by
        rw [Engine.calls_cons, Engine.perform_calls]
        exact List.append_nil _
      rw [asked, Option.toList_some, hcalls]
      exact buffer_hearAll (s.setEngine 0 (e.perform op).engine) (e.perform op).calls k
    | subscribed is =>
      rename_i watch name
      obtain ⟨-, -, -, -, hrecorded⟩ := subscribe_stage s e watch name
      subst is
      have hcalls : written k (e.calls (s.operation? (.subscribe watch name)).toList) = [] := rfl
      rw [hcalls, List.append_nil, buffer, hrecorded]
      split
      · rw [Table.find?_insert_of_ne (Nat.ne_of_lt given)]
        rfl
      · rfl
    | unsubscribed is found =>
      subst is
      rw [operation?, found]
      exact (List.append_nil _).symm
    | drained is stands =>
      rename_i name j
      subst is
      have hne : k ≠ j := by
        rintro rfl
        exact hempties (empties_iff.mpr ⟨name, rfl, stands⟩)
      rw [buffer_insert, if_neg hne]
      exact (List.append_nil _).symm
    | noted asked =>
      rw [asked]
      exact (List.append_nil _).symm

theorem nextHandler_le_run {s : Stage} {e : Engine Handler} (h : s.Sound e) {cs : List Command}
    (keep : ∀ c ∈ cs, c.replaces = false) : s.nextHandler ≤ (s.run cs).nextHandler := by
  have hissued := (Engine.numbers_eq_range' e (s.operations cs)).2
  rw [← h.issued, ← (sound_run h keep).issued, hissued]
  exact Nat.le_add_right _ _

/-- What some commands hand out of a transcript and leave in it was there or is written by the calls
that they make. -/
theorem drained_run {s : Stage} {e : Engine Handler} (h : s.Sound e) {cs : List Command}
    (keep : ∀ c ∈ cs, c.replaces = false) {k : Nat} (given : k < s.nextHandler) :
    s.drained k cs ++ (s.run cs).buffer k =
      s.buffer k ++ written k (e.calls (s.operations cs)) := by
  induction cs generalizing s e with
  | nil => exact (List.append_nil _).symm
  | cons c cs ih =>
    obtain ⟨hc, hcs⟩ := List.forall_mem_cons.mp keep
    have hnext : s.nextHandler ≤ (s.step 0 c).1.nextHandler :=
      nextHandler_le_run h (List.forall_mem_singleton.mpr hc)
    have hlater := ih (sound_step h hc) hcs (Nat.lt_of_lt_of_le given hnext)
    rw [drained, run_cons, List.append_assoc, hlater, ← List.append_assoc, drained_step h hc given,
      operations, Engine.calls_append, written_append, List.append_assoc]

/-- Whoever is called has a handler of his own. -/
theorem own_of_mem_calls {s : Stage} {e : Engine Handler} (h : s.Sound e) {cs : List Command}
    (keep : ∀ c ∈ cs, c.replaces = false) :
    ∀ c ∈ e.calls (s.operations cs), c.subscriber.id = c.subscriber.handler.number + 1 := by
  induction cs generalizing s e with
  | nil => exact List.forall_mem_nil _
  | cons c cs ih =>
    obtain ⟨hc, hcs⟩ := List.forall_mem_cons.mp keep
    rw [operations, Engine.calls_append]
    refine List.forall_mem_append.mpr ⟨?_, ih (sound_step h hc) hcs⟩
    cases s.operation? c with
    | none => exact List.forall_mem_nil _
    | some op =>
      intro call hcall
      rw [Option.toList_some, Engine.calls_cons] at hcall
      rcases List.mem_append.mp hcall with hcall | hcall
      · obtain ⟨m, -, hcall⟩ := List.mem_flatMap.mp hcall
        obtain ⟨t, ht, -, rfl⟩ := Engine.mem_deliver.mp hcall
        exact h.own t ht
      · cases hcall

theorem written_eq_heardBy {k n : Nat} {calls : List (Call Handler)}
    (h : ∀ c ∈ calls, (c.subscriber.handler.watch = .record ∧ c.subscriber.handler.number = k) ↔
      c.subscriber.id = n) :
    written k calls = (Engine.heardBy n calls).map Moment.entry := by
  have hfilter : calls.filter (fun c => c.subscriber.handler.watch = .record ∧
      c.subscriber.handler.number = k) = calls.filter (·.subscriber.id = n) :=
    List.filter_congr fun c hc => decide_eq_decide.mpr (h c hc)
  rw [written, hfilter, Engine.heardBy, List.map_map]
  rfl

/-- A transcript keeps its name until another recorder is given it. -/
theorem transcripts_step {s : Stage} {e : Engine Handler} (h : s.Sound e) {c : Command}
    (keeps : c.replaces = false) {name : String} (other : c ≠ .subscribe .record name) :
    (s.step 0 c).1.transcripts.find? name = s.transcripts.find? name := by
  have hact := act_step h.here keeps
  generalize (s.step 0 c).1 = t at hact
  cases hact with
  | played op =>
    have haside := aside_hearAll (s.setEngine 0 (e.perform op).engine) (e.perform op).calls
    exact congrArg (Table.find? · name) haside.transcripts
  | subscribed is =>
    rename_i watch given
    subst is
    rw [(subscribe_stage s e watch given).2.2.2.1]
    split
    · next hwatch =>
      subst hwatch
      exact Table.find?_insert_of_ne (Ne.symm fun hname => other (by rw [hname]))
    · rfl
  | unsubscribed | drained | noted => rfl

/-- And a subscription until another handler is given it. -/
theorem subscriptions_step {s : Stage} {e : Engine Handler} (h : s.Sound e) {c : Command}
    (keeps : c.replaces = false) {name : String} (other : ∀ watch, c ≠ .subscribe watch name) :
    (s.step 0 c).1.subscriptions.find? name = s.subscriptions.find? name := by
  have hact := act_step h.here keeps
  generalize (s.step 0 c).1 = t at hact
  cases hact with
  | played op =>
    have haside := aside_hearAll (s.setEngine 0 (e.perform op).engine) (e.perform op).calls
    exact congrArg (Table.find? · name) haside.subscriptions
  | subscribed is =>
    rename_i watch given
    subst is
    rw [(subscribe_stage s e watch given).2.2.1]
    exact Table.find?_insert_of_ne (Ne.symm fun hname => other watch (by rw [hname]))
  | unsubscribed | drained | noted => rfl

theorem transcripts_run {s : Stage} {e : Engine Handler} (h : s.Sound e) {cs : List Command}
    (keep : ∀ c ∈ cs, c.replaces = false) {name : String}
    (other : ∀ c ∈ cs, c ≠ .subscribe .record name) :
    (s.run cs).transcripts.find? name = s.transcripts.find? name := by
  induction cs generalizing s e with
  | nil => rfl
  | cons c cs ih =>
    obtain ⟨hc, hcs⟩ := List.forall_mem_cons.mp keep
    obtain ⟨hother, hothers⟩ := List.forall_mem_cons.mp other
    rw [run_cons, ih (sound_step h hc) hcs hothers, transcripts_step h hc hother]

theorem subscriptions_run {s : Stage} {e : Engine Handler} (h : s.Sound e) {cs : List Command}
    (keep : ∀ c ∈ cs, c.replaces = false) {name : String}
    (other : ∀ c ∈ cs, ∀ watch, c ≠ .subscribe watch name) :
    (s.run cs).subscriptions.find? name = s.subscriptions.find? name := by
  induction cs generalizing s e with
  | nil => rfl
  | cons c cs ih =>
    obtain ⟨hc, hcs⟩ := List.forall_mem_cons.mp keep
    obtain ⟨hother, hothers⟩ := List.forall_mem_cons.mp other
    rw [run_cons, ih (sound_step h hc) hcs hothers, subscriptions_step h hc hother]

/-- A recorder that is attached in the course of some commands. -/
structure Recorder (cs : List Command) where
  before : List Command
  name : String
  after : List Command
  split : cs = before ++ .subscribe .record name :: after

namespace Recorder

variable {cs : List Command}

/-- The number of its transcript. -/
def number (x : Recorder cs) : Nat := (initial.run x.before).nextHandler

/-- The stage right after it has been attached. -/
def attached (x : Recorder cs) : Stage :=
  ((initial.run x.before).step 0 (.subscribe .record x.name)).1

/-- What has been handed out of its transcript. -/
def drained (x : Recorder cs) : List Entry := x.attached.drained x.number x.after

/-- Its subscription in the course of the operations that are asked of the engine. -/
def subscription (x : Recorder cs) : Subscription (initial.operations cs) where
  before := initial.operations x.before
  channel := .all
  handler := ⟨x.name, .record, x.number⟩
  after := x.attached.operations x.after
  split := by
    rw [congrArg initial.operations x.split, operations_append]
    rfl

/-- What is announced from when it is attached until it is detached. -/
def announced (x : Recorder cs) : List Moment :=
  (x.subscription.engine 0).announced (x.subscription.stay 0)

theorem run_eq (x : Recorder cs) : initial.run cs = x.attached.run x.after := by
  rw [congrArg initial.run x.split, run_append]
  rfl

variable (x : Recorder cs) (keep : ∀ c ∈ cs, c.replaces = false)

include keep

theorem keep_before : ∀ c ∈ x.before, c.replaces = false :=
  fun c hc => keep c (by rw [x.split]; exact List.mem_append_left _ hc)

theorem keep_after : ∀ c ∈ x.after, c.replaces = false :=
  fun c hc => keep c (by
    rw [x.split]
    exact List.mem_append_right _ (List.mem_cons_of_mem _ hc))

theorem sound_before :
    (initial.run x.before).Sound ((Engine.new 0).run (initial.operations x.before)) :=
  sound_run sound_initial (x.keep_before keep)

theorem sound_attached : x.attached.Sound (x.subscription.engine 0) :=
  sound_step (x.sound_before keep) rfl

theorem nextHandler_attached : x.attached.nextHandler = x.number + 1 := by
  rw [attached, step_eq_obey (x.sound_before keep).here rfl]
  exact (subscribe_stage _ _ .record x.name).2.1

theorem buffer_attached : x.attached.buffer x.number = [] := by
  have hrecorded := (subscribe_stage (initial.run x.before)
    ((Engine.new 0).run (initial.operations x.before)) .record x.name).2.2.2.2
  rw [attached, step_eq_obey (x.sound_before keep).here rfl, buffer]
  exact congrArg (Option.getD · []) ((congrArg (Table.find? · x.number) hrecorded).trans
    (Table.find?_insert_self ..))

theorem transcripts_attached : x.attached.transcripts.find? x.name = some x.number := by
  have htranscripts := (subscribe_stage (initial.run x.before)
    ((Engine.new 0).run (initial.operations x.before)) .record x.name).2.2.2.1
  rw [attached, step_eq_obey (x.sound_before keep).here rfl]
  exact (congrArg (Table.find? · x.name) htranscripts).trans (Table.find?_insert_self ..)

theorem subscriptions_attached :
    x.attached.subscriptions.find? x.name = some (x.number + 1) := by
  have hsubscriptions := (subscribe_stage (initial.run x.before)
    ((Engine.new 0).run (initial.operations x.before)) .record x.name).2.2.1
  rw [attached, step_eq_obey (x.sound_before keep).here rfl]
  refine (congrArg (Table.find? · x.name) hsubscriptions).trans ?_
  rw [Table.find?_insert_self, (x.sound_before keep).issued]
  rfl

theorem id_eq : (x.subscription.subscriber 0).id = x.number + 1 :=
  congrArg (· + 1) (x.sound_before keep).issued

/-- The recorder writes its transcript, and nobody else does. -/
theorem written_iff {c : Call Handler}
    (hc : c ∈ (x.subscription.engine 0).calls (x.attached.operations x.after)) :
    (c.subscriber.handler.watch = .record ∧ c.subscriber.handler.number = x.number) ↔
      c.subscriber.id = (x.subscription.subscriber 0).id := by
  constructor
  · rintro ⟨-, hnumber⟩
    rw [own_of_mem_calls (x.sound_attached keep) (x.keep_after keep) c hc, hnumber, x.id_eq keep]
  · intro hid
    have hsame := Engine.subscriber_of_mem_calls (x.subscription.numbered_engine 0)
      (x.subscription.mem_subscribers_engine 0) _ c hc hid
    rw [hsame]
    exact ⟨rfl, rfl⟩

theorem written_eq :
    written x.number ((x.subscription.engine 0).calls (x.attached.operations x.after)) =
      x.announced.map Moment.entry := by
  have hheard := Engine.heardBy_stretch (x.subscription.numbered_engine 0)
    (x.subscription.mem_subscribers_engine 0) (x.attached.operations x.after)
  have hall : x.announced.filter (Channel.all.hears ·.event) = x.announced :=
    List.filter_eq_self.mpr fun _ _ => rfl
  have heard : Engine.heardBy (x.subscription.subscriber 0).id
      ((x.subscription.engine 0).calls (x.attached.operations x.after)) = x.announced :=
    hheard.trans hall
  rw [written_eq_heardBy fun c hc => x.written_iff keep hc, heard]

/-- What has been handed out and what is left are all that was announced. -/
theorem drained_append_buffer :
    x.drained ++ (initial.run cs).buffer x.number = x.announced.map Moment.entry := by
  have given : x.number < x.attached.nextHandler := by
    rw [x.nextHandler_attached keep]
    exact Nat.lt_succ_self _
  have hrun := drained_run (x.sound_attached keep) (x.keep_after keep) given
  rw [x.buffer_attached keep, List.nil_append, x.written_eq keep] at hrun
  rw [x.run_eq]
  exact hrun

/-- No two recorders write the same transcript. -/
theorem number_lt {y : Recorder cs} (h : x.before.length < y.before.length) :
    x.number < y.number := by
  have hsplit := x.split.symm.trans y.split
  obtain ⟨rest, hrest⟩ : ∃ rest, y.before = x.before ++ .subscribe .record x.name :: rest := by
    rcases List.append_eq_append_iff.mp hsplit with ⟨rest, hy, hx⟩ | ⟨rest, hx, -⟩
    · cases rest with
      | nil =>
        rw [hy, List.append_nil] at h
        exact absurd h (Nat.lt_irrefl _)
      | cons c rest =>
        obtain ⟨rfl, -⟩ := List.cons.inj hx
        exact ⟨rest, hy⟩
    · rw [hx, List.length_append] at h
      omega
  have hrun : initial.run y.before = x.attached.run rest := by
    rw [hrest, run_append]
    rfl
  have hkeep : ∀ c ∈ rest, c.replaces = false := by
    intro c hc
    refine y.keep_before keep c ?_
    rw [hrest]
    exact List.mem_append_right _ (List.mem_cons_of_mem _ hc)
  have hle := nextHandler_le_run (x.sound_attached keep) hkeep
  rw [← hrun, x.nextHandler_attached keep] at hle
  exact hle

end Recorder

/-- What has been handed out of a transcript and what it holds are the entries of all that was
announced while its recorder was attached, whoever else listens. -/
theorem transcripts_complete {cs : List Command} (keep : ∀ c ∈ cs, c.replaces = false) :
    let s := initial.run cs
    let e := (Engine.new 0).run (initial.operations cs)
    s.engines.find? 0 = some e ∧
      (∀ x : Recorder cs,
        x.drained ++ s.buffer x.number = x.announced.map Moment.entry) ∧
      (∀ name k, s.transcripts.find? name = some k →
        s.step 0 (.entries name) = (s, .entries (s.buffer k), []) ∧
        s.step 0 (.length name) = (s, .length (s.buffer k).length (s.buffer k).isEmpty, []) ∧
        s.step 0 (.drain name) =
          ({ s with recorded := s.recorded.insert k [] }, .entries (s.buffer k), []) ∧
        ∀ j, (s.step 0 (.drain name)).1.buffer j = if j = k then [] else s.buffer j) ∧
      (∀ name id, s.subscriptions.find? name = some id →
        (s.step 0 (.unsubscribe name)).1 = s.setEngine 0 (e.unsubscribe id) ∧
        (∀ j, (s.step 0 (.unsubscribe name)).1.buffer j = s.buffer j) ∧
        ∀ t, t ∈ (e.unsubscribe id).subscribers ↔ t ∈ e.subscribers ∧ t.id ≠ id) ∧
      (∀ x : Recorder cs,
        ((∀ c ∈ x.after, c ≠ .subscribe .record x.name) →
          s.transcripts.find? x.name = some x.number) ∧
        ((∀ c ∈ x.after, ∀ watch, c ≠ .subscribe watch x.name) →
          s.subscriptions.find? x.name = some (x.subscription.subscriber 0).id)) ∧
      (∀ x y : Recorder cs, x.number = y.number → x.before.length = y.before.length) ∧
      ∀ x y : Recorder cs, plays x.subscription.before = plays y.subscription.before →
        plays (x.subscription.stay 0) = plays (y.subscription.stay 0) →
          x.drained ++ s.buffer x.number = y.drained ++ s.buffer y.number := by
  intro s e
  have hs : s.Sound e := sound_run sound_initial keep
  have htotal : ∀ x : Recorder cs,
      x.drained ++ s.buffer x.number = x.announced.map Moment.entry :=
    fun x => x.drained_append_buffer keep
  refine ⟨hs.here, htotal, ?_, ?_, ?_, ?_, ?_⟩
  · intro name k stands
    refine ⟨step_entries hs.here stands, step_length hs.here stands, step_drain hs.here stands, ?_⟩
    intro j
    rw [step_drain hs.here stands]
    exact buffer_insert s k [] j
  · intro name id found
    have hstep : (s.step 0 (.unsubscribe name)).1 = s.setEngine 0 (e.unsubscribe id) := by
      simp only [step, hs.here, obey, found]
      rfl
    refine ⟨hstep, fun j => by rw [hstep]; rfl, fun t => ?_⟩
    simp [Engine.unsubscribe]
  · intro x
    have hrun : s = x.attached.run x.after := x.run_eq
    refine ⟨fun other => ?_, fun other => ?_⟩
    · rw [hrun, transcripts_run (x.sound_attached keep) (x.keep_after keep) other,
        x.transcripts_attached keep]
    · rw [hrun, subscriptions_run (x.sound_attached keep) (x.keep_after keep) other,
        x.subscriptions_attached keep, x.id_eq keep]
  · intro x y hnumber
    rcases Nat.lt_trichotomy x.before.length y.before.length with hlt | heq | hlt
    · exact absurd hnumber (Nat.ne_of_lt (x.number_lt keep hlt))
    · exact heq
    · exact absurd hnumber.symm (Nat.ne_of_lt (y.number_lt keep hlt))
  · intro x y hbefore hstay
    have harrival : (x.subscription.engine 0).playback = (y.subscription.engine 0).playback :=
      (Engine.run_congr_plays (e := Engine.new 0) rfl hbefore).1
    have hannounced : x.announced = y.announced := (Engine.run_congr_plays harrival hstay).2.2
    rw [htotal x, htotal y, hannounced]

/-- Two recorders side by side; the transcript of one is emptied while both are there. -/
def duet : List Command := [.subscribe .record "a", .subscribe .record "b",
  .loadTexts [("One.", []), ("Two.", ["Yes."])], .drain "a", .advanceMain, .unsubscribe "a",
  .unsubscribe "b", .advanceMain]

def duetFirst : Recorder duet := ⟨[], "a", _, rfl⟩

def duetSecond : Recorder duet := ⟨[.subscribe .record "a"], "b", _, rfl⟩

theorem duet_transcripts_complete :
    let s := initial.run duet
    (∀ c ∈ duet, c.replaces = false) ∧ s.transcripts.find? "b" = some duetSecond.number ∧
      duetFirst.drained = [.line "" "One." []] ∧
      s.buffer duetFirst.number = [.line "" "Two." ["Yes."]] ∧
      duetFirst.announced.map Moment.entry = [.line "" "One." [], .line "" "Two." ["Yes."]] ∧
      s.buffer duetSecond.number = duetFirst.drained ++ s.buffer duetFirst.number ∧
      (s.step 0 (.drain "b")).1.buffer duetFirst.number = s.buffer duetFirst.number := by
  intro s
  have keep : ∀ c ∈ duet, c.replaces = false := by simp [duet, Command.replaces]
  have hfirst : duetFirst.drained = [.line "" "One." []] := by decide +kernel
  have hsecond : duetSecond.drained = [] := by decide +kernel
  have hbuffer : s.buffer duetFirst.number = [.line "" "Two." ["Yes."]] := by decide +kernel
  have hne : duetFirst.number ≠ duetSecond.number := by decide +kernel
  obtain ⟨-, complete, reading, -, named, -, alike⟩ := transcripts_complete keep
  have stands : s.transcripts.find? "b" = some duetSecond.number :=
    (named duetSecond).1 (by simp [duetSecond])
  have hannounced := complete duetFirst
  rw [hfirst, hbuffer] at hannounced
  have hsame := alike duetFirst duetSecond rfl rfl
  rw [hsecond, List.nil_append] at hsame
  have hother := (reading "b" duetSecond.number stands).2.2.2 duetFirst.number
  rw [if_neg hne] at hother
  exact ⟨keep, stands, hfirst, hbuffer, hannounced.symm, hsame.symm, hother⟩

end Stage

end Dialogue
