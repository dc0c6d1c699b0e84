import Mathlib.Data.List.Basic
import Dialogue.Proofs.Sessions

/-!
# From prompt to prompt

A session goes from one prompt to the next, reading a line of input in each round. Since every round
but the last reads one, the input bounds the number of rounds, however long the script could go on.
All that the playback has announced since the beginning is kept beside the session, whether or not the
turn that announced it went through; at every prompt all of it has been written.
-/
namespace Dialogue.CommandLine

/-- These entries have been shown to the player in this order, among other texts. -/
inductive Printed (player : String) : List Entry → String → Prop
  | nothing : Printed player [] ""
  | entry {es : List Entry} {e : Entry} {text shown : String} (before : Printed player es text)
      (seen : Shown player e shown) : Printed player (es ++ [e]) (text ++ shown)
  | aside {es : List Entry} {text : String} (before : Printed player es text) (other : String) :
      Printed player es (text ++ other)

theorem Printed.entries {player : String} {es : List Entry} {text : String}
    (h : Printed player es text) (fs : List Entry) :
    Printed player (es ++ fs) (text ++ String.join (fs.map (shownText player))) := by
  induction fs generalizing es text with
  | nil => simpa using h
  | cons f fs ih =>
    have hseen : Shown player f (shownText player f) := shown_iff.mpr rfl
    have hf := ih (h.entry hseen)
    rwa [List.append_assoc, String.append_assoc, ← String.join_cons] at hf

/-- The turn that an input asks for, whatever comes of it. -/
def asked? (source : String) (p : Playback) : Input → Option Turn
  | .restart => some (p.loadText source)
  | .onward => (p.current.filter fun l => !l.branches).map fun l => p.advance l.main
  | .number k => some (p.choose k.toNat)
  | .help | .quit | .unknown _ => none

/-- What can follow an input if the script loads: no error gets out, and a notice is given only if the
turn that was asked for, if any, has had no effect. -/
inductive Reacts (source : String) (p : Playback) (x : Input) : Reaction → Prop
  | stopped (named : x = .quit) : Reacts source p x .stopped
  | noticed (text : String)
      (idle : ∀ t, asked? source p x = some t → t.playback = p ∧ t.entries = []) :
      Reacts source p x (.notice text)
  | turn {t : Turn} (asked : asked? source p x = some t) : Reacts source p x (.turn t)
  | restarted {t : Turn} (asked : asked? source p x = some t) : Reacts source p x (.restarted t)

/-- A turn that fails is told to the player, and has had no effect. -/
theorem reacts_ofTurn {source : String} {p : Playback} {x : Input} {s : Selection}
    (h : asked? source p x = some (p.select s)) : Reacts source p x (.ofTurn (p.select s)) := by
  cases hresult : (p.select s).result with
  | ok =>
    rw [Reaction.ofTurn, hresult]
    exact .turn h
  | error e =>
    rw [Reaction.ofTurn, hresult]
    refine .noticed _ fun t ht => ?_
    obtain rfl := Option.some.inj (h.symm.trans ht)
    rw [select_eq_refuse hresult]
    exact ⟨rfl, rfl⟩

theorem reacts {source : String} {p : Playback} (loads : (p.loadText source).result = .ok ())
    (x : Input) : Reacts source p x (react source p x) := by
  cases x with
  | help => exact .noticed helpLine (by simp [asked?])
  | unknown t => exact .noticed _ (by simp [asked?])
  | quit => exact .stopped rfl
  | restart =>
    simp only [react, loads]
    exact .restarted rfl
  | number k => exact reacts_ofTurn (s := .choice k) rfl
  | onward =>
    have hselect : ∀ l, p.current = some l → p.select .main = p.advance l.main := by
      intro l hl
      simp only [Playback.select, Playback.advanceMain, hl]
    cases hcurrent : p.current with
    | none =>
      simp only [react, hcurrent]
      exact .noticed _ (by simp [asked?, hcurrent])
    | some l =>
      cases hheld : l.branches with
      | true =>
        simp only [react, hcurrent, hheld, if_true]
        exact .noticed _ (by simp [asked?, hcurrent, hheld])
      | false =>
        simp only [react, hcurrent, hheld, Bool.false_eq_true, if_false, ← hselect l hcurrent]
        exact reacts_ofTurn (by simp [asked?, hcurrent, hheld, hselect l hcurrent])

/-- A session at a prompt, with what has been written, the lines of input that have not been read,
and all that the playback has announced. -/
structure Prompt where
  session : Session
  written : String
  unread : List (List UInt8)
  announced : List Entry

namespace Prompt

/-- The first prompt of a session. -/
def start (g : Settings) (lines : List (List UInt8)) : Prompt :=
  let t := (Playback.new 0).loadText g.source
  ⟨(opening g t).1, (opening g t).2, lines, t.entries⟩

def reading (v : Prompt) (lines : List (List UInt8)) : Prompt := { v with unread := lines }

/-- What the session writes from its beginning on, and exits with. -/
def finish (g : Settings) (v : Prompt) : Finish := (converse g v.unread v.session).after v.written

/-- What the playback announces when a line of input has been read. -/
def heard (g : Settings) (s : Session) (bytes : List UInt8) : List Entry :=
  match Files.Disk.decode bytes with
  | .error _ => []
  | .ok raw => ((asked? g.source s.playback (.ofText raw)).map Turn.entries).getD []

/-- One round of the session: it comes to the next prompt, or finishes. -/
def round (g : Settings) (v : Prompt) : Prompt ⊕ Finish :=
  if v.session.playback.active then
    match v.unread with
    | [] => .inr ⟨v.written ++ (promptText ++ "\n"), 0⟩
    | bytes :: rest =>
      match answer g v.session bytes with
      | (output, .exit code) => .inr ⟨v.written ++ (promptText ++ output), code⟩
      | (output, .prompt s) =>
        .inl ⟨s, v.written ++ (promptText ++ output), rest, v.announced ++ heard g v.session bytes⟩
  else .inr ⟨v.written, 0⟩

def rounds (g : Settings) : Nat → Prompt → Prompt ⊕ Finish
  | 0, v => .inl v
  | n + 1, v =>
    match v.round g with
    | .inl w => rounds g n w
    | .inr f => .inr f

variable {g : Settings} {v w : Prompt} {n : Nat} {f : Finish}

/-- Why a session finishes at a prompt: the script has ended, the input has, or the player leaves. -/
inductive Over (v : Prompt) : Finish → Prop
  | ended (off : v.session.playback.active = false) : Over v ⟨v.written, 0⟩
  | exhausted (on : v.session.playback.active) (all : v.unread = []) :
      Over v ⟨v.written ++ "> \n", 0⟩
  | quit (on : v.session.playback.active) {line : List UInt8} {rest : List (List UInt8)}
      {raw : String} (next : v.unread = line :: rest) (read : Files.Disk.decode line = .ok raw)
      (named : Input.ofText raw = .quit) : Over v ⟨v.written ++ "> bye\n", 0⟩

/-- What a round can come to if the script loads and the lines can be read. What has been announced
is shown, unless nothing has been. -/
inductive Comes (g : Settings) (v : Prompt) : Prompt ⊕ Finish → Prop
  | noticed {line : List UInt8} {rest : List (List UInt8)} (next : v.unread = line :: rest)
      (text : String) :
      Comes g v (.inl ⟨v.session, v.written ++ (promptText ++ (text ++ "\n")), rest, v.announced⟩)
  | shown {line : List UInt8} {rest : List (List UInt8)} (next : v.unread = line :: rest)
      (head : String) (t : Turn) :
      Comes g v (.inl ⟨((v.session.take t).show g.player).1,
        v.written ++ (promptText ++ (head ++ ((v.session.take t).show g.player).2)), rest,
        v.announced ++ t.entries⟩)
  | stopped {f : Finish} (why : v.Over f) : Comes g v (.inr f)

theorem comes (loads : (v.session.playback.loadText g.source).result = .ok ())
    (readable : ∀ line ∈ v.unread, ∃ raw, Files.Disk.decode line = .ok raw) :
    Comes g v (v.round g) := by
  cases active : v.session.playback.active with
  | false =>
    simp only [round, active, Bool.false_eq_true, if_false]
    exact .stopped (.ended active)
  | true =>
    cases hunread : v.unread with
    | nil =>
      simp only [round, active, hunread, if_true]
      exact .stopped (.exhausted active hunread)
    | cons line rest =>
      obtain ⟨raw, hraw⟩ := readable line (by simp [hunread])
      have hcases := reacts loads (Input.ofText raw)
      simp only [round, active, hunread, if_true, answer, heard, hraw]
      cases hx : react g.source v.session.playback (Input.ofText raw) with
      | stopped =>
        rw [hx] at hcases
        cases hcases with
        | stopped named => exact .stopped (.quit active hunread hraw named)
      | notice text =>
        rw [hx] at hcases
        cases hcases with
        | noticed _ idle =>
          -- Nothing is shown in this round, so nothing may have been announced in it.
          have hnone : ((asked? g.source v.session.playback (Input.ofText raw)).map
              Turn.entries).getD [] = [] := by
            cases ht : asked? g.source v.session.playback (Input.ofText raw) with
            | none => rfl
            | some t => exact (idle t ht).2
          simp only [hnone, List.append_nil]
          exact .noticed hunread text
      | turn t =>
        rw [hx] at hcases
        cases hcases with
        | turn asked =>
          have hshown := Comes.shown (g := g) hunread "" t
          simpa only [asked, Option.map_some, Option.getD_some, String.empty_append] using hshown
      | restarted t =>
        rw [hx] at hcases
        cases hcases with
        | restarted asked =>
          simp only [asked, Option.map_some, Option.getD_some]
          exact .shown hunread _ t
      | refused e =>
        rw [hx] at hcases
        cases hcases

/-- How it stands at a prompt. -/
structure Settled (g : Settings) (v : Prompt) : Prop where
  flushed : v.session.pending = []
  printed : Printed g.player v.announced v.written
  readable : ∀ line ∈ v.unread, ∃ raw, Files.Disk.decode line = .ok raw

namespace Settled

theorem start (g : Settings) {lines : List (List UInt8)}
    (readable : ∀ line ∈ lines, ∃ raw, Files.Disk.decode line = .ok raw) :
    Settled g (Prompt.start g lines) where
  flushed := rfl
  printed := by
    have hheading : Printed g.player [] ("== " ++ g.title ++ " ==\n" ++ helpLine ++ "\n") := by
      simpa using Printed.nothing.aside ("== " ++ g.title ++ " ==\n" ++ helpLine ++ "\n")
    have hshown := hheading.entries ((Playback.new 0).loadText g.source).entries
    rwa [Prompt.start, opening_eq]
  readable := readable

/-- What has been shown is what was pending; what has been announced is shown with it. -/
theorem round (h : Settled g v) (loads : ((Playback.new 0).loadText g.source).result = .ok ())
    (hround : v.round g = .inl w) : Settled g w := by
  have hcomes := comes ((loadText_result _ (.new 0) g.source).trans loads) h.readable
  rw [hround] at hcomes
  cases hcomes with
  | noticed next text =>
    refine ⟨h.flushed, h.printed.aside _, fun line hline => h.readable line ?_⟩
    rw [next]
    exact List.mem_cons_of_mem _ hline
  | shown next head t =>
    refine ⟨rfl, ?_, fun line hline => h.readable line ?_⟩
    · have hshown := (h.printed.aside (promptText ++ head)).entries t.entries
      simpa only [Session.take, Session.show, h.flushed, List.nil_append, unlines_shownLines,
        String.append_assoc] using hshown
    · rw [next]
      exact List.mem_cons_of_mem _ hline

theorem rounds (h : Settled g v) (loads : ((Playback.new 0).loadText g.source).result = .ok ())
    (hrounds : v.rounds g n = .inl w) : Settled g w := by
  induction n generalizing v with
  | zero =>
    obtain rfl := Sum.inl.inj hrounds
    exact h
  | succ n ih =>
    cases hround : v.round g with
    | inr f => simp [Prompt.rounds, hround] at hrounds
    | inl u =>
      simp only [Prompt.rounds, hround] at hrounds
      exact ih (h.round loads hround) hrounds

theorem stopped (h : Settled g v) (loads : ((Playback.new 0).loadText g.source).result = .ok ())
    (hround : v.round g = .inr f) : v.Over f := by
  have hcomes := comes ((loadText_result _ (.new 0) g.source).trans loads) h.readable
  rw [hround] at hcomes
  cases hcomes with
  | stopped why => exact why

end Settled

end Prompt

end Dialogue.CommandLine
