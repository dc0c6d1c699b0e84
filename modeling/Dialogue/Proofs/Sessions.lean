import Dialogue.CommandLine.Execute
import Dialogue.Proofs.Agreement
import Dialogue.Proofs.Refusal
import Dialogue.Proofs.Rendering
import Dialogue.Proofs.Walk

/-!
# Sessions at the prompt

The course of a session says what became of each line of input, and why the session stopped; what
the program writes is read off it. Between two restarts a session does what a run of the accepted
selections does on a script that has just been loaded, and an input that is answered by a notice
might as well not have been typed.
-/
namespace Dialogue.CommandLine

open TestCase (playedText)

/-- The selection that an input asks for: a blank line goes on, a number chooses. -/
def Input.selection? : Input → Option Selection
  | .onward => some .main
  | .number k => some (.choice k)
  | .help | .restart | .quit | .unknown _ => none

/-- A blank line is held back where there is something to choose. -/
def Input.heldBack (l : CurrentLine) : Input → Bool
  | .onward => l.branches
  | _ => false

/-- What became of a line of input, with the entries that were shown in answer. -/
inductive Exchange where
  | accepted (input : Input) (shown : List Entry)
  | noticed (input : Input) (text : String)
  | restarted (input : Input) (shown : List Entry)
  deriving DecidableEq, Repr

/-- Why a session stopped. -/
inductive Stop where
  | ended
  | exhausted
  | quit
  | failed (e : EngineError)
  deriving DecidableEq, Repr

/-- What became of the lines of input that were read, and why no more were. -/
structure Course where
  exchanges : List Exchange
  stop : Stop
  deriving DecidableEq, Repr

namespace Exchange

def input : Exchange → Input
  | .accepted x _ => x
  | .noticed x _ => x
  | .restarted x _ => x

/-- What is written in answer. -/
def text (g : Settings) : Exchange → String
  | .accepted _ shown => String.join (shown.map (shownText g.player))
  | .noticed _ text => text ++ "\n"
  | .restarted _ shown =>
    "restarted: " ++ g.path ++ "\n" ++ String.join (shown.map (shownText g.player))

end Exchange

namespace Stop

/-- A session that stops while a line is on show has asked for one more input. -/
def text : Stop → String
  | .ended => ""
  | .exhausted => "> \n"
  | .quit => "> bye\n"
  | .failed e => "> " ++ unlines (CommandError.engine e).lines

def exit : Stop → Nat
  | .failed _ => 1
  | .ended | .exhausted | .quit => 0

end Stop

namespace Course

def after (c : Course) (e : Exchange) : Course := { c with exchanges := e :: c.exchanges }

def output (g : Settings) : List Exchange → Stop → String
  | [], stop => stop.text
  | e :: es, stop => "> " ++ e.text g ++ output g es stop

/-- What a session of this course writes and exits with. -/
def finish (g : Settings) (c : Course) : Finish := ⟨output g c.exchanges c.stop, c.stop.exit⟩

end Course

/-- What an input at a prompt comes to: an exchange and the playback after it, or a reason to
stop. -/
def exchange (source : String) (p : Playback) (x : Input) : Except Stop (Exchange × Playback) :=
  match react source p x with
  | .notice text => .ok (.noticed x text, p)
  | .turn t => .ok (.accepted x t.entries, t.playback)
  | .restarted t => .ok (.restarted x t.entries, t.playback)
  | .refused e => .error (.failed e)
  | .stopped => .error .quit

/-- The course of a session from a prompt on, at which everything has been shown. -/
def course (source : String) : List Input → Playback → Course
  | [], p => ⟨[], if p.active then .exhausted else .ended⟩
  | x :: xs, p =>
    if p.active then
      match exchange source p x with
      | .ok (e, q) => (course source xs q).after e
      | .error stop => ⟨[], stop⟩
    else ⟨[], .ended⟩

/-- What happened between two restarts: the selections accepted, and the entries shown. -/
structure Segment where
  selections : List Selection
  shown : List Entry
  deriving DecidableEq, Repr

/-- Cuts a session at the restarts, given what has happened since the last one. -/
def segments (now : Segment) : List Exchange → List Segment
  | [] => [now]
  | .accepted x shown :: es =>
    segments ⟨now.selections ++ x.selection?.toList, now.shown ++ shown⟩ es
  | .noticed _ _ :: es => segments now es
  | .restarted _ shown :: es => now :: segments ⟨[], shown⟩ es

theorem take_show (p : Playback) (t : Turn) (player : String) :
    (Session.take ⟨p, []⟩ t).show player =
      (⟨t.playback, []⟩, String.join (t.entries.map (shownText player))) :=
  congrArg (Prod.mk _) (unlines_shownLines player t.entries)

theorem opening_eq (g : Settings) (t : Turn) :
    opening g t = (⟨t.playback, []⟩, "== " ++ g.title ++ " ==\n" ++ helpLine ++ "\n" ++
      String.join (t.entries.map (shownText g.player))) := by
  have hheading : unlines ["== " ++ g.title ++ " ==", helpLine] =
      "== " ++ g.title ++ " ==\n" ++ helpLine ++ "\n" := by
    simp [unlines, String.append_assoc]
  rw [opening, take_show, hheading]

/-- Whether a text loads does not depend on what was playing before. -/
theorem loadText_result (p q : Playback) (source : String) :
    (p.loadText source).result = (q.loadText source).result := by
  unfold Playback.loadText
  split
  · rfl
  · unfold Playback.load
    split <;> rfl

theorem react_of_selection {source : String} {p : Playback} {l : CurrentLine}
    (hl : p.current = some l) {x : Input} {s : Selection} (hx : x.selection? = some s) :
    react source p x =
      if x.heldBack l then .notice ("choose an option: 0.." ++ toString (l.choices.length - 1))
      else .ofTurn (p.select s) := by
  cases x with
  | onward =>
    obtain rfl : Selection.main = s := Option.some.inj hx
    simp only [react, hl, Input.heldBack, Playback.select, Playback.advanceMain]
  | number k =>
    obtain rfl : Selection.choice k = s := Option.some.inj hx
    simp [react, Input.heldBack, Playback.select]
  | _ => cases hx

/-- Why an input is answered by a notice while a line is on show, and what the notice says. -/
inductive Noticed (p : Playback) (l : CurrentLine) : Input → String → Prop
  | help : Noticed p l .help helpLine
  | unknown (t : String) : Noticed p l (.unknown t) ("unknown input \"" ++ t ++ "\", try :help")
  | heldBack {x : Input} (held : x.heldBack l) :
      Noticed p l x ("choose an option: 0.." ++ toString (l.choices.length - 1))
  | refused {x : Input} {s : Selection} {e : EngineError} (named : x.selection? = some s)
      (free : x.heldBack l = false) (barred : p.select s = p.refuse e) : Noticed p l x e.message

theorem select_eq_refuse {p : Playback} {s : Selection} {e : EngineError}
    (h : (p.select s).result = .error e) : p.select s = p.refuse e := by
  have hturn : (p.turn (.select s : Operation Unit)).result = .error e := h
  exact Playback.turn_of_error rfl hturn

/-- What an input can come to while a line of the script is on show, the script being one that
loads. -/
inductive Exchanged (source : String) (p : Playback) (l : CurrentLine) (x : Input) :
    Except Stop (Exchange × Playback) → Prop
  | accepted {s : Selection} (named : x.selection? = some s) (free : x.heldBack l = false)
      (through : (p.select s).result = .ok ()) :
      Exchanged source p l x (.ok (.accepted x (p.select s).entries, (p.select s).playback))
  | noticed {text : String} (why : Noticed p l x text) :
      Exchanged source p l x (.ok (.noticed x text, p))
  | restarted (named : x = .restart) :
      Exchanged source p l x
        (.ok (.restarted x (p.loadText source).entries, (p.loadText source).playback))
  | stopped (named : x = .quit) : Exchanged source p l x (.error .quit)

theorem exchanged {source : String} {p : Playback} (loads : (p.loadText source).result = .ok ())
    {l : CurrentLine} (hl : p.current = some l) (x : Input) :
    Exchanged source p l x (exchange source p x) := by
  cases hx : x.selection? with
  | some s =>
    rw [exchange, react_of_selection hl hx]
    cases hheld : x.heldBack l with
    | true => exact .noticed (.heldBack hheld)
    | false =>
      rw [if_neg Bool.false_ne_true]
      cases hr : (p.select s).result with
      | ok u =>
        simp only [Reaction.ofTurn, hr]
        exact .accepted hx hheld hr
      | error e =>
        simp only [Reaction.ofTurn, hr]
        exact .noticed (.refused hx hheld (select_eq_refuse hr))
  | none =>
    cases x with
    | help => exact .noticed .help
    | unknown t => exact .noticed (.unknown t)
    | restart =>
      simp only [exchange, react, loads]
      exact .restarted rfl
    | quit => exact .stopped rfl
    | onward => cases hx
    | number k => cases hx

theorem length_choices_issue (p : Playback) (i : Nat) (l : Line) :
    (p.issue i l).choices.length = l.choices.length := by
  simp [Playback.issue]

/-- A session has shown what a run shows of the script that has just been loaded, and both have come
to the same line. -/
structure Mirrors (source : String) (p : Playback) (now : Segment) (q : Playthrough) : Prop where
  played : playedText source now.selections = .ok q
  ran : ∀ more, runText source (now.selections ++ more) = applyAll now.selections.length q more
  shown : q.transcript = now.shown
  alike : ∃ s place, p.Shows s place ∧ q.playback.Shows s place

namespace Mirrors

variable {source : String} {p : Playback} {now : Segment} {q : Playthrough}

theorem active_eq (h : Mirrors source p now q) : p.active = q.playback.active := by
  obtain ⟨s, place, hp, hq⟩ := h.alike
  simp only [Playback.active, hp.index, hq.index]

/-- Both stand at the same way out, so the same selections go through, to the same effect. -/
theorem select_agree (h : Mirrors source p now q) (x : Selection) :
    (q.playback.select x).result = (p.select x).result ∧
      (q.playback.select x).entries = (p.select x).entries ∧
      ((p.select x).result = .ok () → ∃ s place, (p.select x).playback.Shows s place ∧
        (q.playback.select x).playback.Shows s place) := by
  obtain ⟨s, place, hp, hq⟩ := h.alike
  have hpstep := Playback.select_eq_step hp x
  have hqstep := Playback.select_eq_step hq x
  cases hx : Walk.step s place x with
  | error e =>
    rw [hx] at hpstep hqstep
    rw [hpstep, hqstep]
    exact ⟨rfl, rfl, nofun⟩
  | ok reached =>
    rw [hx] at hpstep hqstep
    obtain ⟨hpr, hpe, hps⟩ := hpstep
    obtain ⟨hqr, hqe, hqs⟩ := hqstep
    exact ⟨hqr.trans hpr.symm, hqe.trans hpe.symm, fun _ => ⟨s, _, hps, hqs⟩⟩

/-- A selection that the session accepts is one more selection of the run. -/
theorem select (h : Mirrors source p now q) (active : p.active) {x : Selection}
    (through : (p.select x).result = .ok ()) :
    Mirrors source (p.select x).playback
      ⟨now.selections ++ [x], now.shown ++ (p.select x).entries⟩
      ⟨(q.playback.select x).playback, q.transcript ++ (q.playback.select x).entries⟩ := by
  obtain ⟨hresult, hentries, halike⟩ := h.select_agree x
  have hselect : q.select x =
      .ok ⟨(q.playback.select x).playback, q.transcript ++ (q.playback.select x).entries⟩ := by
    simp only [Playthrough.select, Playthrough.extend, hresult, through, Except.map]
  refine ⟨?_, ?_, ?_, halike through⟩
  · have hplayed := h.played
    simp only [playedText] at hplayed ⊢
    cases hstart : Playthrough.startText source with
    | error e => simp [hstart, Except.bind] at hplayed
    | ok first =>
      simp only [hstart, Except.bind] at hplayed ⊢
      simp only [Playthrough.selectAll_append, hplayed, Except.bind, Playthrough.selectAll_cons,
        hselect]
      rfl
  · intro more
    have hended : q.ended = false := by
      simp only [Playthrough.ended, ← h.active_eq, active, Bool.not_true]
    have hran := h.ran (x :: more)
    simp only [applyAll, hended, Bool.false_eq_true, if_false, hselect] at hran
    simpa using hran
  · simp only [h.shown, hentries]

/-- A script that has been loaded, in a session or for the first time, is what a run starts from. -/
theorem start (loads : ((Playback.new 0).loadText source).result = .ok ()) (p : Playback) :
    ∃ q, Mirrors source (p.loadText source).playback ⟨[], (p.loadText source).entries⟩ q := by
  have hloads : (p.loadText source).result = .ok () := (loadText_result _ _ source).trans loads
  obtain ⟨s, hs⟩ : ∃ s, Script.parse source = .ok s := by
    cases h : Script.parse source with
    | ok s => exact ⟨s, rfl⟩
    | error f => simp [Playback.loadText, h] at hloads
  have htext : ∀ r : Playback, r.loadText source = r.reset.load s := by
    intro r
    simp only [Playback.loadText, hs]
  rw [htext] at loads hloads
  obtain ⟨hshows, hentries⟩ := Playback.shows_load loads
  obtain ⟨hpshows, hpentries⟩ := Playback.shows_load hloads
  let q : Playthrough :=
    ⟨((Playback.new 0).reset.load s).playback, ((Playback.new 0).reset.load s).entries⟩
  have hstart : Playthrough.startText source = .ok q := by
    simp only [Playthrough.startText, Playthrough.extend, htext, loads, Except.map,
      List.nil_append, q]
  refine ⟨q, ?_, ?_, ?_, ?_⟩
  · simp only [playedText, hstart, Except.bind, Playthrough.selectAll, List.foldlM_nil, pure,
      Except.pure]
  · intro more
    simp only [runText, hstart, List.nil_append, List.length_nil]
  · simp only [q, hentries, htext, hpentries]
  · rw [htext]
    exact ⟨s, _, hpshows, hshows⟩

theorem exists_current (h : Mirrors source p now q) (active : p.active) :
    ∃ l m, p.current = some l ∧ q.playback.current = some m ∧
      l.choices.length = m.choices.length := by
  obtain ⟨s, place, hp, hq⟩ := h.alike
  obtain ⟨i, hi⟩ := Option.isSome_iff_exists.mp active
  obtain rfl : place = some i := hp.index.symm.trans hi
  obtain ⟨t, line, ht, hline, _⟩ := Playback.line?_of_index? hp.consistent hi
  obtain rfl : t = s := Option.some.inj (ht.symm.trans hp.script)
  refine ⟨_, _, Playback.current_of_shows hp hline, Playback.current_of_shows hq hline, ?_⟩
  rw [length_choices_issue, length_choices_issue]

end Mirrors

theorem segments_ne_nil (now : Segment) (es : List Exchange) : segments now es ≠ [] := by
  induction es generalizing now with
  | nil => exact List.cons_ne_nil _ _
  | cons e es ih =>
    cases e with
    | accepted x shown => exact ih _
    | noticed x text => exact ih _
    | restarted x shown => exact List.cons_ne_nil _ _

theorem course_of_not_active {source : String} {p : Playback} (h : p.active = false)
    (xs : List Input) : course source xs p = ⟨[], .ended⟩ := by
  cases xs <;> simp [course, h]

theorem course_cons {source : String} {p : Playback} (h : p.active) (x : Input)
    (xs : List Input) :
    course source (x :: xs) p =
      match exchange source p x with
      | .ok (e, q) => (course source xs q).after e
      | .error stop => ⟨[], stop⟩ := by
  rw [course, if_pos h]

/-- A session that goes on from a prompt has had an input and has followed it. -/
theorem exists_exchange_of_course {source : String} {xs : List Input} {p : Playback}
    {e : Exchange} {es : List Exchange} {stop : Stop} (h : course source xs p = ⟨e :: es, stop⟩) :
    ∃ x rest q, xs = x :: rest ∧ p.active ∧ exchange source p x = .ok (e, q) ∧
      course source rest q = ⟨es, stop⟩ := by
  cases hp : p.active with
  | false =>
    rw [course_of_not_active hp] at h
    cases h
  | true =>
    cases xs with
    | nil => simp [course] at h
    | cons x rest =>
      rw [course_cons hp] at h
      cases hx : exchange source p x with
      | error reason => simp [hx] at h
      | ok r =>
        obtain ⟨d, q⟩ := r
        simp only [hx, Course.after, Course.mk.injEq, List.cons.injEq] at h
        obtain ⟨⟨rfl, rfl⟩, rfl⟩ := h
        exact ⟨x, rest, q, rfl, rfl, hx, rfl⟩

/-- How a session can stop whose script loads: never for an error. -/
def Course.StopsAfter (c : Course) (inputs : List Input) : Prop :=
  match c.stop with
  | .ended => True
  | .exhausted => c.exchanges.length = inputs.length
  | .quit => inputs[c.exchanges.length]? = some .quit
  | .failed _ => False

theorem Course.StopsAfter.after {c : Course} {xs : List Input} (h : c.StopsAfter xs) (e : Exchange)
    (x : Input) : (c.after e).StopsAfter (x :: xs) := by
  obtain ⟨es, stop⟩ := c
  cases stop with
  | ended => trivial
  | exhausted => exact congrArg (· + 1) h
  | quit => exact h
  | failed d => exact h

namespace Mirrors

variable {source : String} {p : Playback} {now : Segment} {q : Playthrough}

/-- A session that mirrors a run goes on to mirror one. -/
theorem exchange (loads : ((Playback.new 0).loadText source).result = .ok ())
    (h : Mirrors source p now q) (active : p.active) {x : Input} {e : Exchange} {r : Playback}
    (hx : exchange source p x = .ok (e, r)) :
    ∃ seg q', Mirrors source r seg q' ∧
      ∀ es, (segments now (e :: es)).getLast? = (segments seg es).getLast? := by
  obtain ⟨l, _, hl, _, _⟩ := h.exists_current active
  have hcases := exchanged ((loadText_result p (.new 0) source).trans loads) hl x
  rw [hx] at hcases
  cases hcases with
  | accepted named _ through =>
    refine ⟨_, _, h.select active through, fun es => ?_⟩
    rw [segments, named]
    rfl
  | noticed => exact ⟨_, _, h, fun _ => rfl⟩
  | restarted named =>
    obtain ⟨q', hq'⟩ := start loads p
    refine ⟨_, q', hq', fun es => ?_⟩
    rw [segments, List.getLast?_cons]
    cases hlast : (segments _ es).getLast? with
    | none => exact absurd (List.getLast?_eq_none_iff.mp hlast) (segments_ne_nil _ _)
    | some seg => rfl

/-- After any number of exchanges the session mirrors a run of its last segment. -/
theorem course (loads : ((Playback.new 0).loadText source).result = .ok ())
    (h : Mirrors source p now q) {xs : List Input} {before later : List Exchange} {stop : Stop}
    (hc : course source xs p = ⟨before ++ later, stop⟩) :
    ∃ rest r seg q', Mirrors source r seg q' ∧ (segments now before).getLast? = some seg ∧
      CommandLine.course source rest r = ⟨later, stop⟩ := by
  induction before generalizing xs p now q with
  | nil => exact ⟨xs, p, now, q, h, rfl, hc⟩
  | cons e before ih =>
    obtain ⟨x, rest, r, rfl, active, hx, hrest⟩ := exists_exchange_of_course hc
    obtain ⟨seg, q', hmirrors, hlast⟩ := h.exchange loads active hx
    rw [hlast]
    exact ih hmirrors hrest

end Mirrors

namespace Mirrors

variable {source : String} {p : Playback} {now : Segment} {q : Playthrough}

end Mirrors

end Dialogue.CommandLine
