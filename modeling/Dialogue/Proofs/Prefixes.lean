import Dialogue.Proofs.Replies

/-!
# More actions and fewer

A list of actions that plays a script to its end is just long enough: with fewer actions the script
has not ended, with more there are some left. What has gone wrong on the way stays wrong, whatever
follows it.
-/
namespace Dialogue

namespace Playthrough

/-- All that has been recorded before stands at the head of the transcript. -/
theorem prefix_of_selectAll {p q : Playthrough} {xs : List Selection}
    (h : p.selectAll xs = .ok q) : p.transcript <+: q.transcript := by
  induction xs generalizing p with
  | nil =>
    obtain rfl := Except.ok.inj h
    exact List.prefix_rfl
  | cons a rest ih =>
    rw [selectAll_cons] at h
    cases hs : p.select a with
    | error e => simp [hs, Except.bind] at h
    | ok r =>
      rw [hs] at h
      exact (prefix_of_select hs).trans (ih h)

/-- Only where a line is on show can anything be selected. -/
theorem not_ended_of_select {p q : Playthrough} {a : Selection} (h : p.select a = .ok q) :
    p.ended = false := by
  cases he : p.ended with
  | false => rfl
  | true =>
    rw [select_of_ended he] at h
    cases h

/-- Where a longer list goes through, a shorter one goes through as well and has not come to the
end. -/
theorem exists_of_selectAll_append {p q : Playthrough} {xs : List Selection} {a : Selection}
    {rest : List Selection} (h : p.selectAll (xs ++ a :: rest) = .ok q) :
    ∃ r, p.selectAll xs = .ok r ∧ r.ended = false ∧ r.transcript <+: q.transcript := by
  rw [selectAll_append] at h
  cases hxs : p.selectAll xs with
  | error e => simp [hxs, Except.bind] at h
  | ok r =>
    have hrest : r.selectAll (a :: rest) = .ok q := by rwa [hxs] at h
    refine ⟨r, rfl, ?_, prefix_of_selectAll hrest⟩
    rw [selectAll_cons] at hrest
    cases hs : r.select a with
    | error e => simp [hs, Except.bind] at hrest
    | ok r' => exact not_ended_of_select hs

/-- A list of actions that does not go through has a first one that fails. -/
theorem selectAll_cases (p : Playthrough) (xs : List Action) :
    (∃ q, p.selectAll (xs.map Action.selection) = .ok q) ∨
      ∃ before a rest q e, xs = before ++ a :: rest ∧
        p.selectAll (before.map Action.selection) = .ok q ∧ q.select a.selection = .error e := by
  induction xs generalizing p with
  | nil => exact .inl ⟨p, rfl⟩
  | cons a rest ih =>
    cases hs : p.select a.selection with
    | error e => exact .inr ⟨[], a, rest, p, e, rfl, rfl, hs⟩
    | ok r =>
      have hcons : ∀ ys : List Action, p.selectAll ((a :: ys).map Action.selection) =
          r.selectAll (ys.map Action.selection) := by
        intro ys
        rw [List.map_cons, selectAll_cons, hs]
        rfl
      rcases ih r with ⟨q, hq⟩ | ⟨before, b, later, q, e, rfl, hq, he⟩
      · exact .inl ⟨q, by rw [hcons, hq]⟩
      · exact .inr ⟨a :: before, b, later, q, e, rfl, by rw [hcons, hq], he⟩

end Playthrough

namespace TestCase

open CommandLine (execute runArguments runText source finishOf runText_eq_ok_iff)
open Json (bind_eq_ok)

variable {p q : Playthrough} {xs : List Action} {a : Action}

theorem spend_nil_of_ended (h : q.ended) (total used : Nat) :
    spend total used q [] = .ok ⟨q.transcript.map .ofEntry, used, true⟩ := by
  have hindex : q.playback.index? = none := by simpa [Playthrough.ended_eq_isNone] using h
  simp only [spend, hindex, h]

theorem exists_line_of_not_ended (h : q.ended = false) :
    ∃ line, q.playback.index? = some line := by
  rw [Playthrough.ended_eq_isNone, Option.isNone_eq_false_iff] at h
  exact Option.isSome_iff_exists.mp h

theorem spend_nil_of_not_ended (h : q.ended = false) (total used : Nat) :
    ∃ event line, spend total used q [] = .error (.missingAction event line) := by
  obtain ⟨line, hline⟩ := exists_line_of_not_ended h
  exact ⟨q.transcript.length - 1, line, by simp only [spend, hline]⟩

theorem spend_cons_of_ended (h : q.ended) (total used : Nat) (rest : List Action) :
    spend total used q (a :: rest) = .error (.unusedActions used total) := by
  have hindex : q.playback.index? = none := by simpa [Playthrough.ended_eq_isNone] using h
  simp only [spend, hindex]

theorem spend_cons_of_error (h : q.ended = false) {e : EngineError}
    (fails : q.select a.selection = .error e) (total used : Nat) (rest : List Action) :
    spend total used q (a :: rest) = .error (.engine e) := by
  obtain ⟨line, hline⟩ := exists_line_of_not_ended h
  simp only [spend, hline, fails]

theorem spend_cons_of_ok {r : Playthrough} (through : q.select a.selection = .ok r)
    (total used : Nat) (rest : List Action) :
    spend total used q (a :: rest) = spend total (used + 1) r rest := by
  obtain ⟨line, hline⟩ := exists_line_of_not_ended (Playthrough.not_ended_of_select through)
  simp only [spend, hline, through]

/-- Actions that go through are spent, and the others are left to the playthrough they lead to. -/
theorem spend_append (through : p.selectAll (xs.map Action.selection) = .ok q) (total used : Nat)
    (ys : List Action) :
    spend total used p (xs ++ ys) = spend total (used + xs.length) q ys := by
  induction xs generalizing p used with
  | nil =>
    obtain rfl := Except.ok.inj through
    rfl
  | cons a rest ih =>
    rw [List.map_cons, Playthrough.selectAll_cons] at through
    cases hs : p.select a.selection with
    | error e => simp [hs, Except.bind] at through
    | ok r =>
      rw [hs] at through
      have hlength : used + (a :: rest).length = used + 1 + rest.length := by
        rw [List.length_cons]
        omega
      rw [List.cons_append, spend_cons_of_ok hs, hlength]
      exact ih through (used + 1)

theorem spend_of_through (through : p.selectAll (xs.map Action.selection) = .ok q)
    (total used : Nat) : spend total used p xs = spend total (used + xs.length) q [] := by
  have happend := spend_append through total used []
  rwa [List.append_nil] at happend

/-- What becomes of a list of actions, told by how far its selections go through. -/
inductive Spends (p : Playthrough) (total used : Nat) :
    List Action → Except CaseError Report → Prop
  | just {xs : List Action} {q : Playthrough}
      (through : p.selectAll (xs.map Action.selection) = .ok q) (ended : q.ended) :
      Spends p total used xs (.ok ⟨q.transcript.map .ofEntry, used + xs.length, true⟩)
  | few {xs : List Action} {q : Playthrough}
      (through : p.selectAll (xs.map Action.selection) = .ok q) (shown : q.ended = false)
      (event line : Nat) : Spends p total used xs (.error (.missingAction event line))
  | many {xs : List Action} {q : Playthrough}
      (through : p.selectAll (xs.map Action.selection) = .ok q) (ended : q.ended) (a : Action)
      (rest : List Action) :
      Spends p total used (xs ++ a :: rest) (.error (.unusedActions (used + xs.length) total))
  | barred {xs : List Action} {q : Playthrough}
      (through : p.selectAll (xs.map Action.selection) = .ok q) (shown : q.ended = false)
      {a : Action} {e : EngineError} (fails : q.select a.selection = .error e)
      (rest : List Action) : Spends p total used (xs ++ a :: rest) (.error (.engine e))

theorem spends (p : Playthrough) (total used : Nat) (xs : List Action) :
    Spends p total used xs (spend total used p xs) := by
  rcases p.selectAll_cases xs with ⟨q, through⟩ | ⟨before, a, rest, q, e, rfl, through, fails⟩
  · rw [spend_of_through through]
    cases he : q.ended with
    | true =>
      rw [spend_nil_of_ended he]
      exact .just through he
    | false =>
      obtain ⟨event, line, hmissing⟩ := spend_nil_of_not_ended he total (used + xs.length)
      rw [hmissing]
      exact .few through he event line
  · rw [spend_append through]
    cases he : q.ended with
    | true =>
      rw [spend_cons_of_ended he]
      exact .many through he a rest
    | false =>
      rw [spend_cons_of_error he fails]
      exact .barred through he fails rest

/-- Fewer actions than are needed. -/
theorem spend_prefix {report : Report} {total used : Nat}
    (passed : spend total used p xs = .ok report) {ys : List Action} (shorter : ys <+: xs)
    (proper : ys ≠ xs) (total' : Nat) :
    ∃ event line, spend total' used p ys = .error (.missingAction event line) := by
  obtain ⟨zs, hzs⟩ := shorter
  have hspends := spends p total used xs
  rw [passed] at hspends
  cases hspends with
  | just through =>
    subst hzs
    cases zs with
    | nil => exact absurd (List.append_nil ys).symm proper
    | cons a rest =>
      rw [List.map_append, List.map_cons] at through
      obtain ⟨r, hr, hshown, -⟩ := Playthrough.exists_of_selectAll_append through
      rw [spend_of_through hr]
      exact spend_nil_of_not_ended hshown total' _

/-- More actions than are needed. -/
theorem spend_extend {report : Report} {total used : Nat}
    (passed : spend total used p xs = .ok report) (a : Action) (more : List Action)
    (total' : Nat) :
    spend total' used p (xs ++ a :: more) = .error (.unusedActions (used + xs.length) total') := by
  have hspends := spends p total used xs
  rw [passed] at hspends
  cases hspends with
  | just through ended => rw [spend_append through, spend_cons_of_ended ended]

/-- The actions that are not left over are just enough. -/
theorem spend_take_of_unused {total used n m : Nat}
    (unused : spend total used p xs = .error (.unusedActions n m)) :
    m = total ∧ ∃ k < xs.length, n = used + k ∧
      ∀ total', ∃ report, spend total' used p (xs.take k) = .ok report := by
  have hspends := spends p total used xs
  rw [unused] at hspends
  cases hspends with
  | @many before q through ended a rest =>
    refine ⟨rfl, before.length, by simp, rfl, fun total' => ?_⟩
    rw [List.take_left, spend_of_through through, spend_nil_of_ended ended]
    exact ⟨_, rfl⟩

/-- What the engine refuses is refused whatever would follow. -/
theorem spend_append_of_engine {total used : Nat} {e : EngineError}
    (failed : spend total used p xs = .error (.engine e)) (more : List Action) (total' : Nat) :
    spend total' used p (xs ++ more) = .error (.engine e) := by
  have hspends := spends p total used xs
  rw [failed] at hspends
  cases hspends with
  | barred through shown fails rest =>
    rw [List.append_assoc, List.cons_append, spend_append through, spend_cons_of_error shown fails]

/-- The playthrough with which all runs on a directory start. -/
def staged (d : Files.Disk) (directory : String) : Except CaseError Playthrough :=
  match readScript d directory with
  | .error e => .error e
  | .ok (_, source) =>
    match Script.parse source with
    | .error f => .error (.engine (.parse f))
    | .ok s => (Playthrough.start s).mapError .engine

theorem run_eq_spend (d : Files.Disk) (directory : String) (c : TestCase) :
    run d directory c = (staged d directory).bind fun p => spend c.actions.length 0 p c.actions := by
  unfold run staged
  cases readScript d directory with
  | error e => rfl
  | ok found =>
    simp only
    cases Script.parse found.2 with
    | error f => rfl
    | ok s =>
      simp only [runScript]
      cases Playthrough.start s <;> rfl

/-- Nothing is left over before anything has been played. -/
theorem staged_ne_unused (d : Files.Disk) (directory : String) (used total : Nat) :
    staged d directory ≠ .error (.unusedActions used total) := by
  have hread : readScript d directory ≠ .error (.unusedActions used total) := by
    unfold readScript findScript
    cases d.findScript directory with
    | error e => cases e <;> simp
    | ok path => cases hpath : d.read path <;> simp [hpath]
  unfold staged
  cases hfound : readScript d directory with
  | error e => simpa [hfound] using hread
  | ok found =>
    simp only
    cases Script.parse found.2 with
    | error f => simp
    | ok s =>
      simp only
      cases Playthrough.start s <;> simp [Except.mapError]

variable {chosen : List Selection}

/-- What a command that is given a script and selections comes to. -/
theorem execute_eq_finishOf (d : Files.Disk) (script : String) (selections : List Selection)
    (input : List UInt8) : execute d (runArguments script selections) input =
      finishOf ((source d script).bind fun src => runText src.text selections) := by
  rw [CommandLine.execute_run (CommandLine.command?_runArguments script selections),
    CommandLine.replyTo, CommandLine.Reply.finish_ofResult]

/-- A run that goes through has not come to the end before its last selection. -/
theorem runText_prefix {text : String} {o : CommandLine.Outcome} (h : runText text chosen = .ok o)
    {ys : List Selection} (shorter : ys <+: chosen) (proper : ys ≠ chosen) :
    ∃ es, runText text ys = .ok ⟨es, false⟩ ∧ es <+: o.entries := by
  obtain ⟨q, hplayed, rfl⟩ := runText_eq_ok_iff.mp h
  obtain ⟨zs, rfl⟩ := shorter
  cases zs with
  | nil => exact absurd (List.append_nil ys).symm proper
  | cons a rest =>
    obtain ⟨p, hp, hselect⟩ := bind_eq_ok.mp hplayed
    obtain ⟨r, hr, hshown, hprefix⟩ := Playthrough.exists_of_selectAll_append hselect
    refine ⟨r.transcript, runText_eq_ok_iff.mpr ⟨r, ?_, by rw [hshown]⟩, hprefix⟩
    exact bind_eq_ok.mpr ⟨p, hp, hr⟩

theorem reports_prefix {d : Files.Disk} {script : String} {input : List UInt8} {state : String}
    (h : (execute d (runArguments script chosen) input).Reports state) {ys : List Selection}
    (shorter : ys <+: chosen) (proper : ys ≠ chosen) :
    let printed := execute d (runArguments script ys) input
    printed.Reports "STATE:ACTIVE" ∧
      printed.blocks <+: (execute d (runArguments script chosen) input).blocks := by
  intro printed
  simp only [printed]
  rw [execute_eq_finishOf] at h ⊢
  rw [execute_eq_finishOf]
  cases hsource : source d script with
  | error e =>
    rw [hsource] at h
    exact absurd h (CommandLine.CommandError.not_reports e state)
  | ok src =>
    rw [hsource] at h
    simp only [Except.bind] at h ⊢
    cases hrun : runText src.text chosen with
    | error e =>
      rw [hrun] at h
      exact absurd h (CommandLine.CommandError.not_reports e state)
    | ok o =>
      obtain ⟨es, hes, hprefix⟩ := runText_prefix hrun shorter proper
      rw [hes, finishOf, finishOf, CommandLine.Outcome.blocks_finish,
        CommandLine.Outcome.blocks_finish]
      exact ⟨CommandLine.Outcome.reports_iff.mpr rfl, hprefix.map _⟩

/-- The lists of actions with which test cases on a directory pass are prefix-free, and what a command
reports for some selections goes on from what it reports for the first of them. -/
theorem complete_actions_prefix_free (d : Files.Disk) (directory script : String) (c : TestCase)
    (input : List UInt8) (xs : List Action) (chosen : List Selection) :
    let test (actions : List Action) := run d directory { c with actions }
    let printed (selections : List Selection) := execute d (runArguments script selections) input
    (∀ r, test xs = .ok r →
        (∀ ys, ys <+: xs → ys ≠ xs → ∃ event line, test ys = .error (.missingAction event line)) ∧
        ∀ a more, test (xs ++ a :: more) =
          .error (.unusedActions xs.length (xs ++ a :: more).length)) ∧
      (∀ used total, test xs = .error (.unusedActions used total) →
        total = xs.length ∧ used < total ∧ ∃ r, test (xs.take used) = .ok r) ∧
      (∀ e, test xs = .error (.engine e) → ∀ more, test (xs ++ more) = .error (.engine e)) ∧
      ∀ state, (printed chosen).Reports state → ∀ ys, ys <+: chosen → ys ≠ chosen →
        (printed ys).Reports "STATE:ACTIVE" ∧ (printed ys).blocks <+: (printed chosen).blocks := by
  intro test printed
  have hprinted := fun state (h : (printed chosen).Reports state) ys (shorter : ys <+: chosen)
    proper => reports_prefix h shorter proper
  have htest : ∀ actions, test actions =
      (staged d directory).bind fun p => spend actions.length 0 p actions :=
    fun actions => run_eq_spend d directory { c with actions }
  cases hstaged : staged d directory with
  | error e =>
    have hfails : ∀ actions, test actions = .error e := by
      intro actions
      rw [htest, hstaged]
      rfl
    refine ⟨?_, ?_, ?_, hprinted⟩
    · intro r hr
      rw [hfails] at hr
      cases hr
    · intro used total hunused
      rw [hfails, Except.error.injEq] at hunused
      exact absurd (hunused ▸ hstaged) (staged_ne_unused d directory used total)
    · intro f hf more
      rwa [hfails] at hf ⊢
  | ok p =>
    have hspend : ∀ actions, test actions = spend actions.length 0 p actions := by
      intro actions
      rw [htest, hstaged]
      rfl
    simp only [hspend]
    refine ⟨?_, ?_, ?_, hprinted⟩
    · intro r passed
      refine ⟨fun ys shorter proper => spend_prefix passed shorter proper _, fun a more => ?_⟩
      rw [spend_extend passed, Nat.zero_add]
    · intro used total unused
      obtain ⟨rfl, k, hk, rfl, hpassed⟩ := spend_take_of_unused unused
      rw [Nat.zero_add]
      exact ⟨rfl, hk, hpassed _⟩
    · intro e failed more
      exact spend_append_of_engine failed more _

/-- One action is just enough for a script of one line, and no choice can be made there. -/
theorem hello_actions_prefix_free :
    let test (actions : List Action) :=
      run helloDisk (helloDisk.absolute "demo") { schema := knownSchema, actions }
    let printed (selections : List Selection) := execute helloDisk (runArguments "demo" selections) []
    let barred := CaseError.engine (.choiceOutOfRange 4 0)
    test [.main] = .ok ⟨[.line "" "Hello." [], .cleared, .finished], 1, true⟩ ∧
      (∃ event line, test [] = .error (.missingAction event line)) ∧
      test [.main, .main] = .error (.unusedActions 1 2) ∧
      (∃ r, test ([.main, .main].take 1) = .ok r) ∧
      test [.choice 4] = .error barred ∧ test [.choice 4, .main] = .error barred ∧
      (printed [.main]).Reports "STATE:ENDED" ∧ (printed []).Reports "STATE:ACTIVE" ∧
      (printed []).blocks <+: (printed [.main]).blocks := by
  intro test printed barred
  have facts := complete_actions_prefix_free helloDisk (helloDisk.absolute "demo") "demo"
    { schema := knownSchema } []
  have passed : test [.main] = .ok ⟨[.line "" "Hello." [], .cleared, .finished], 1, true⟩ := by
    decide +kernel
  have refused : test [.choice 4] = .error barred := by decide +kernel
  have reported : (printed [.main]).Reports "STATE:ENDED" := by
    simp only [printed, CommandLine.execute_runArguments helloDisk_onlyScript]
    have agree := agree_run (readScript_of_only helloDisk_onlyScript)
      { schema := knownSchema, actions := [.main] }
    exact agree.ok_iff.mp ⟨_, passed⟩
  obtain ⟨fewer, more⟩ := (facts [.main] []).1 _ passed
  have unused : test [.main, .main] = .error (.unusedActions 1 2) := more .main []
  obtain ⟨-, -, enough⟩ := (facts [.main, .main] []).2.1 1 2 unused
  obtain ⟨active, events⟩ := (facts [] [.main]).2.2.2 _ reported [] List.nil_prefix (by decide)
  exact ⟨passed, fewer [] List.nil_prefix (by decide), unused, enough, refused,
    (facts [.choice 4] []).2.2.1 _ refused [.main], reported, active, events⟩

end TestCase

end Dialogue
