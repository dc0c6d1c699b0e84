import Mathlib.Data.List.Forall2
import Dialogue.Files.Lookup

/-!
# Writing files

A file that is written can be read at its path. If its name is not that of a script, every path
leads to what it has led to before, and every directory that has stood for a script stands for the
same script, read as before.
-/
namespace Dialogue.Files

theorem suffix_append_cons_iff {α : Type} {sep : α} {suffix xs ys : List α} (h : sep ∉ suffix) :
    suffix <:+ xs ++ sep :: ys ↔ suffix <:+ ys := by
  constructor
  · intro hs
    rcases List.suffix_or_suffix_of_suffix hs (List.suffix_append xs (sep :: ys)) with hle | hle
    · rcases List.suffix_cons_iff.mp hle with rfl | hys
      · exact absurd List.mem_cons_self h
      · exact hys
    · exact absurd (hle.subset List.mem_cons_self) h
  · intro hys
    exact hys.trans ((List.suffix_cons sep ys).trans (List.suffix_append xs _))

theorem isScriptName_append_slash (base name : String) :
    isScriptName (base ++ "/" ++ name) = isScriptName name := by
  have hslash : '/' ∉ scriptSuffix.toList := by decide
  have hchars : (base ++ "/" ++ name).toList = base.toList ++ '/' :: name.toList := by simp
  rw [Bool.eq_iff_iff, isScriptName, isScriptName, List.isSuffixOf_iff_suffix,
    List.isSuffixOf_iff_suffix, hchars]
  exact suffix_append_cons_iff hslash

/-- The directory of a file has no say in whether it is a script. -/
theorem isScriptName_join (base name : String) :
    isScriptName (join base name) = isScriptName name := by
  unfold join
  split
  · rfl
  · split
    · next hlast =>
      obtain ⟨init, hinit⟩ := List.getLast?_eq_some_iff.mp hlast
      have hbase : base ++ name = String.ofList init ++ "/" ++ name := by
        apply String.toList_inj.mp
        simp [hinit]
      rw [hbase, isScriptName_append_slash]
    · exact isScriptName_append_slash base name

theorem isScriptName_foldl_join {names : List String} {last : String}
    (h : names.getLast? = some last) (base : String) :
    isScriptName (names.foldl join base) = isScriptName last := by
  obtain ⟨init, rfl⟩ := List.getLast?_eq_some_iff.mp h
  rw [List.foldl_append]
  exact isScriptName_join _ last

theorem pieces_append_cons {α : Type} [DecidableEq α] (sep : α) (xs ys : List α) :
    pieces sep (xs ++ sep :: ys) = pieces sep xs ++ pieces sep ys := by
  induction xs with
  | nil => simp [pieces]
  | cons x xs ih =>
    simp only [List.cons_append, pieces, ih]
    split
    · rfl
    · cases h : pieces sep xs with
      | nil => exact absurd h (pieces_ne_nil sep xs)
      | cons p ps => rfl

theorem isScriptName_of_last {path last : String} (h : (components path).getLast? = some last) :
    isScriptName path = isScriptName last := by
  by_cases hslash : '/' ∈ path.toList
  · obtain ⟨rev, front, hrev, hrest⟩ :=
      List.eq_append_cons_of_mem (List.mem_reverse.mpr hslash)
    have hchars : path.toList = front.reverse ++ '/' :: rev.reverse := by
      rw [← List.reverse_reverse path.toList, hrev]
      simp
    have hpath : path = String.ofList front.reverse ++ "/" ++ String.ofList rev.reverse := by
      apply String.toList_inj.mp
      simp [hchars]
    have hpieces : pieces '/' rev.reverse = [rev.reverse] :=
      pieces_of_not_mem fun hmem => hrest (List.mem_reverse.mp hmem)
    rw [components, hchars, pieces_append_cons, hpieces, List.map_append, List.map_singleton,
      List.getLast?_concat] at h
    obtain rfl := Option.some.inj h
    rw [hpath, isScriptName_append_slash]
  · obtain rfl : path = last := by simpa [components, pieces_of_not_mem hslash] using h
    rfl

mutual

theorem isScriptName_of_mem_scripts {found path : String} {t : Tree}
    (h : found ∈ scripts path t) : isScriptName found := by
  match t with
  | .file content =>
    unfold scripts at h
    split at h
    · next hname => exact List.mem_singleton.mp h ▸ hname
    · cases h
  | .link => cases h
  | .directory entries =>
    unfold scripts at h
    split at h
    · cases h
    · exact isScriptName_of_mem_scriptsIn h
termination_by structural t

theorem isScriptName_of_mem_scriptsIn {found path : String} {entries : List (String × Tree)}
    (h : found ∈ scriptsIn path entries) : isScriptName found := by
  match entries with
  | [] => cases h
  | (name, t) :: rest =>
    rcases List.mem_append.mp h with h | h
    · exact isScriptName_of_mem_scripts h
    · exact isScriptName_of_mem_scriptsIn h
termination_by structural entries

end

namespace Tree

theorem lookup_setEntry_of_ne {name other : String} (h : other ≠ name) (t : Tree)
    (entries : List (String × Tree)) :
    (setEntry name t entries).lookup other = entries.lookup other := by
  have hname : (other == name) = false := beq_eq_false_iff_ne.mpr h
  induction entries with
  | nil => simp [setEntry, List.lookup_cons, hname]
  | cons e rest ih =>
    obtain ⟨first, u⟩ := e
    simp only [setEntry]
    split
    · next hfirst =>
      rw [hfirst, List.lookup_cons, List.lookup_cons, hname]
    · rw [List.lookup_cons, List.lookup_cons, ih]

/-- Whether a file can be put at a place: a file or nothing stands there, and on the way there are
directories or nothing. -/
def Room : List String → Option Tree → Prop
  | [], none => True
  | [], some t => ∃ content, t = .file content
  | _ :: _, none => True
  | name :: names, some t => ∃ entries, t = .directory entries ∧ Room names (entries.lookup name)

theorem room_none (names : List String) : Room names none := by
  cases names <;> trivial

/-- What stands where `t` has stood, once a file has been put at a place below it. -/
def put (content : List UInt8) (names : List String) (t : Option Tree) : Tree :=
  alter (fun _ => .file content) names t

theorem put_directory (content : List UInt8) (name : String) (names : List String)
    (entries : List (String × Tree)) :
    put content (name :: names) (some (.directory entries)) =
      .directory (setEntry name (put content names (entries.lookup name)) entries) := rfl

theorem put_none (content : List UInt8) (name : String) (names : List String) :
    put content (name :: names) none = .directory [(name, put content names none)] := rfl

/-- Below a place on the way there is what has been put there. -/
theorem exists_put_cons (content : List UInt8) {name : String} {names : List String} {t : Option Tree}
    (room : Room (name :: names) t) :
    ∃ entries next, put content (name :: names) t = .directory entries ∧
      entries.lookup name = some (put content names next) ∧ Room names next := by
  cases t with
  | none => exact ⟨_, none, put_none content name names, by simp, room_none names⟩
  | some t =>
    obtain ⟨entries, rfl, hroom⟩ := room
    exact ⟨_, _, put_directory content name names entries, lookup_setEntry_self _ _ _, hroom⟩

end Tree

open Dialogue.Files.Tree (Room put)

variable {content : List UInt8}

theorem scriptsIn_setEntry {path name : String} {t : Tree} {entries : List (String × Tree)}
    (h : scripts (join path name) t =
      (entries.lookup name).elim [] (scripts (join path name))) :
    scriptsIn path (Tree.setEntry name t entries) = scriptsIn path entries := by
  induction entries with
  | nil =>
    have hnone : scripts (join path name) t = [] := by simpa using h
    simp [Tree.setEntry, scriptsIn, hnone]
  | cons e rest ih =>
    obtain ⟨other, u⟩ := e
    simp only [Tree.setEntry]
    split
    · next heq =>
      subst heq
      have hsame : scripts (join path other) t = scripts (join path other) u := by simpa using h
      simp only [scriptsIn, hsame]
    · next hne =>
      have hother : (name == other) = false := beq_eq_false_iff_ne.mpr (Ne.symm hne)
      rw [List.lookup_cons, hother] at h
      simp only [scriptsIn, ih h]

/-- A file that is put somewhere under a name that no script has leaves the scripts as they are. -/
theorem scripts_put {names : List String} {t : Option Tree} {path : String} (room : Room names t)
    (other : isScriptName (names.foldl join path) = false) :
    scripts path (put content names t) = t.elim [] (scripts path) := by
  induction names generalizing t path with
  | nil =>
    have hpath : isScriptName path = false := other
    cases t with
    | none => simp [put, Tree.alter, scripts, hpath]
    | some t =>
      obtain ⟨old, rfl⟩ := room
      simp [put, Tree.alter, scripts]
  | cons name names ih =>
    cases t with
    | none =>
      have hbelow : scripts (join path name) (put content names none) = [] :=
        ih (Tree.room_none names) other
      simp [Tree.put_none, scripts, scriptsIn, hbelow]
    | some t =>
      obtain ⟨entries, rfl, hroom⟩ := room
      have hentries := scriptsIn_setEntry (ih hroom other)
      simp only [Tree.put_directory, scripts, hentries, Option.elim]

/-- Whether `t'` is the tree `t` as it was, or with a file put below it under this name. -/
def Tree.Gains (content : List UInt8) (last : String) (t t' : Tree) : Prop :=
  t' = t ∨ ∃ names, names.getLast? = some last ∧ Room names (some t) ∧
    t' = put content names (some t)

open Dialogue.Files.Tree (Gains)

variable {last : String}

/-- Every entry is still there, and is the file itself or has gained it in turn. -/
theorem Tree.Gains.entries {entries : List (String × Tree)} {t' : Tree}
    (h : Gains content last (.directory entries) t') :
    ∃ entries', t' = .directory entries' ∧ ∀ name u, entries.lookup name = some u →
      ∃ u', entries'.lookup name = some u' ∧
        (Gains content last u u' ∨ (∃ old, u = .file old) ∧ name = last) := by
  rcases h with rfl | ⟨names, hlast, room, rfl⟩
  · exact ⟨entries, rfl, fun name u hu => ⟨u, hu, .inl (.inl rfl)⟩⟩
  · cases names with
    | nil => cases hlast
    | cons first rest =>
      obtain ⟨_, ⟨⟩, hroom⟩ := room
      refine ⟨_, put_directory content first rest entries, fun name u hu => ?_⟩
      by_cases hname : name = first
      · subst hname
        rw [hu] at hroom
        rw [lookup_setEntry_self, hu]
        refine ⟨_, rfl, ?_⟩
        cases rest with
        | nil => exact .inr ⟨hroom, Option.some.inj hlast⟩
        | cons second rest => exact .inl (.inr ⟨_, by simpa using hlast, hroom, rfl⟩)
      · rw [lookup_setEntry_of_ne hname]
        exact ⟨u, hu, .inl (.inl rfl)⟩

/-- Where a component of a path leads from a directory, and the directories above that. -/
def step? (entries : List (String × Tree)) (above : List Tree) (name : String) :
    Option (Tree × List Tree) :=
  if name = "" ∨ name = "." then some (.directory entries, above)
  else if name = ".." then some (above.headD (.directory entries), above.tail)
  else if maxNameSize < name.utf8ByteSize then none
  else (entries.lookup name).map (·, .directory entries :: above)

theorem walk_cons_eq_ok_iff {entries : List (String × Tree)} {above : List Tree} {name : String}
    {names : List String} {t : Tree} :
    walk (.directory entries) above (name :: names) = .ok t ↔
      ∃ next, step? entries above name = some next ∧ walk next.1 next.2 names = .ok t := by
  unfold step?
  simp only [walk]
  split
  · simp
  · split
    · cases above <;> simp
    · split
      · simp
      · cases entries.lookup name <;> simp

/-- A component leads to what it has led to before, unless it is the name of the file. -/
theorem step?_gains {entries entries' : List (String × Tree)} {above above' higher : List Tree}
    {name : String} {u : Tree}
    (hhere : Gains content last (.directory entries) (.directory entries'))
    (habove : List.Forall₂ (Gains content last) above above')
    (h : step? entries above name = some (u, higher)) :
    ∃ u' higher', step? entries' above' name = some (u', higher') ∧
      List.Forall₂ (Gains content last) higher higher' ∧
      (Gains content last u u' ∨ (∃ old, u = .file old) ∧ name = last) := by
  unfold step? at h ⊢
  split at h
  · next hstay =>
    cases h
    exact ⟨_, _, if_pos hstay, habove, .inl hhere⟩
  next hgo =>
  rw [if_neg hgo]
  split at h
  · next hup =>
    cases h
    rw [if_pos hup]
    cases habove with
    | nil => exact ⟨_, _, rfl, .nil, .inl hhere⟩
    | cons hout hrest => exact ⟨_, _, rfl, hrest, .inl hout⟩
  next hdown =>
  rw [if_neg hdown]
  split at h
  · cases h
  next hsize =>
  rw [if_neg hsize]
  obtain ⟨v, hlookup, hnext⟩ := Option.map_eq_some_iff.mp h
  cases hnext
  obtain ⟨_, ⟨⟩, hentries⟩ := hhere.entries
  obtain ⟨u', hlookup', hgains⟩ := hentries name u hlookup
  exact ⟨u', _, by rw [hlookup']; rfl, .cons hhere habove, hgains⟩

/-- A path leads to what it has led to before, unless it ends at a file of that name. -/
theorem walk_gains {names : List String} {here here' t : Tree} {above above' : List Tree}
    (hhere : Gains content last here here') (habove : List.Forall₂ (Gains content last) above above')
    (h : walk here above names = .ok t) : ∃ t', walk here' above' names = .ok t' ∧
      (Gains content last t t' ∨ (∃ old, t = .file old) ∧ names.getLast? = some last) := by
  induction names generalizing here here' above above' with
  | nil =>
    obtain rfl := Except.ok.inj h
    exact ⟨here', rfl, .inl hhere⟩
  | cons name names ih =>
    cases here with
    | file | link => cases h
    | directory entries =>
      obtain ⟨⟨u, higher⟩, hstep, hwalk⟩ := walk_cons_eq_ok_iff.mp h
      obtain ⟨entries', rfl, -⟩ := hhere.entries
      obtain ⟨u', higher', hstep', hhigher, hu | ⟨⟨old, rfl⟩, rfl⟩⟩ :=
        step?_gains hhere habove hstep
      · obtain ⟨t', hwalk', hgains⟩ := ih hu hhigher hwalk
        refine ⟨t', walk_cons_eq_ok_iff.mpr ⟨_, hstep', hwalk'⟩, hgains.imp_right fun hfile => ?_⟩
        exact ⟨hfile.1, List.mem_getLast?_cons hfile.2⟩
      · -- Nothing is below a file, so the path ends here.
        cases names with
        | nil =>
          obtain rfl := Except.ok.inj hwalk
          exact ⟨u', walk_cons_eq_ok_iff.mpr ⟨_, hstep', rfl⟩, .inr ⟨⟨old, rfl⟩, rfl⟩⟩
        | cons => cases hwalk

/-- Whether a component of a path is the name of an entry. -/
def isName (component : String) : Bool := component ≠ "" ∧ component ≠ "."

/-- The names on the way to a path that never goes up. -/
def place (path : String) : List String := (components path).filter isName

theorem getLast?_filter_isName {names : List String} (named : ∀ c ∈ names.getLast?, isName c) :
    (names.filter isName).getLast? = names.getLast? := by
  cases hlast : names.getLast? with
  | none =>
    rw [List.getLast?_eq_none_iff.mp hlast]
    rfl
  | some c =>
    obtain ⟨init, rfl⟩ := List.getLast?_eq_some_iff.mp hlast
    have hc : isName c := named c hlast
    rw [List.filter_append, List.filter_cons_of_pos hc, List.filter_nil, List.getLast?_concat]

/-- What has been put at a place is found there. -/
theorem walk_put {names : List String} {t : Option Tree} {above : List Tree}
    (plain : ∀ c ∈ names, c ≠ ".." ∧ c.utf8ByteSize ≤ maxNameSize)
    (named : ∀ c ∈ names.getLast?, isName c) (room : Room (names.filter isName) t) :
    walk (put content (names.filter isName) t) above names = .ok (.file content) := by
  induction names generalizing t above with
  | nil => rfl
  | cons name names ih =>
    obtain ⟨⟨hup, hsize⟩, hplain⟩ := List.forall_mem_cons.mp plain
    have hnamed : ∀ c ∈ names.getLast?, isName c :=
      fun c hc => named c (List.mem_getLast?_cons hc)
    by_cases hname : isName name
    · have hgo : ¬ (name = "" ∨ name = ".") := by simpa [isName] using hname
      rw [List.filter_cons_of_pos hname] at room ⊢
      obtain ⟨entries, next, hput, hlookup, hroom⟩ := Tree.exists_put_cons content room
      simp only [hput, walk, hgo, hup, Nat.not_lt.mpr hsize, if_false, hlookup]
      exact ih hplain hnamed hroom
    · have hstay : name = "" ∨ name = "." := by simpa [isName, imp_iff_not_or] using hname
      -- The last component is a name, so there is still one to come.
      have hlast := getLast?_filter_isName named
      rw [List.filter_cons_of_neg hname] at room hlast ⊢
      have hrest := @ih t above hplain hnamed room
      cases hnames : names.filter isName with
      | nil =>
        rw [hnames, List.getLast?_cons] at hlast
        cases hlast
      | cons first rest =>
        rw [hnames] at room hrest
        obtain ⟨entries, _, hput, _, _⟩ := Tree.exists_put_cons content room
        rw [hput] at hrest ⊢
        simp only [walk, hstay, if_true, hrest]

namespace Disk

/-- Whether a file can be written at a path: the path never goes up, and there is room for it. -/
structure Free (d : Disk) (path : String) : Prop where
  fault : pathFault? path = none
  plain : ∀ c ∈ components path, c ≠ ".." ∧ c.utf8ByteSize ≤ maxNameSize
  named : ∀ c ∈ (components path).getLast?, isName c
  room : Room (place path) (some d.root)

/-- Writes a file; missing directories on the way are created. -/
def write (d : Disk) (path text : String) : Disk :=
  { d with root := d.root.addFile (place path) text.toUTF8.data.toList }

variable {d : Disk} {path : String}

theorem read_write (free : d.Free path) (text : String) :
    (d.write path text).read path = .ok text := by
  have hresolve : (d.write path text).resolve path = .ok (.file text.toUTF8.data.toList) := by
    rw [resolve, free.fault]
    exact walk_put free.plain free.named free.room
  simp only [read, hresolve, decode_toUTF8]

theorem exists_getLast?_place (free : d.Free path) :
    ∃ last, (place path).getLast? = some last ∧ isScriptName path = isScriptName last := by
  rw [place, getLast?_filter_isName free.named]
  cases hlast : (components path).getLast? with
  | none =>
    have hnil : pieces '/' path.toList = [] := by
      simpa [components] using List.getLast?_eq_none_iff.mp hlast
    exact absurd hnil (pieces_ne_nil _ _)
  | some last => exact ⟨last, rfl, isScriptName_of_last hlast⟩

/-- Every path still leads to what it has led to, which may have got the file below it, or is a file
of the same name. -/
theorem resolve_write (free : d.Free path) (text : String) {last : String}
    (hlast : (place path).getLast? = some last) {there : String} {t : Tree}
    (h : d.resolve there = .ok t) : ∃ t', (d.write path text).resolve there = .ok t' ∧
      (Gains text.toUTF8.data.toList last t t' ∨
        (∃ old, t = .file old) ∧ (components there).getLast? = some last) := by
  unfold resolve at h ⊢
  cases hfault : pathFault? there with
  | some e => simp [hfault] at h
  | none =>
    rw [hfault] at h
    exact walk_gains (.inr ⟨place path, hlast, free.room, rfl⟩) .nil h

theorem exists_of_findScript {directory found : String} (h : d.findScript directory = .ok found) :
    ∃ t, d.resolve directory = .ok t ∧ found ∈ scripts directory t := by
  unfold findScript at h
  cases hresolve : d.resolve directory with
  | error e => simp [hresolve] at h
  | ok t =>
    simp only [hresolve] at h
    exact ⟨t, rfl, by simp [theOnly_eq_ok_iff.mp h]⟩

/-- The script that a directory stands for is still the only one. -/
theorem findScript_write (free : d.Free path) (other : isScriptName path = false) (text : String)
    {directory found : String} (h : d.findScript directory = .ok found) :
    (d.write path text).findScript directory = .ok found := by
  obtain ⟨last, hlast, hname⟩ := exists_getLast?_place free
  unfold findScript at h ⊢
  cases hresolve : d.resolve directory with
  | error e => simp [hresolve] at h
  | ok t =>
    simp only [hresolve] at h
    obtain ⟨t', hresolve', hbelow⟩ := resolve_write free text hlast hresolve
    have hscripts : scripts directory t' = scripts directory t := by
      rcases hbelow with (rfl | ⟨names, hnames, room, rfl⟩) | ⟨⟨old, rfl⟩, hdirectory⟩
      · rfl
      · apply scripts_put room
        rw [isScriptName_foldl_join hnames, ← hname, other]
      · have hempty : scripts directory (.file old) = [] := by
          simp [scripts, isScriptName_of_last hdirectory, ← hname, other]
        rw [hempty] at h
        cases h
    simp only [hresolve', hscripts]
    exact h

/-- Scripts are still read as before. -/
theorem read_write_of_script (free : d.Free path) (other : isScriptName path = false)
    (text : String) {script source : String} (hscript : isScriptName script)
    (h : d.read script = .ok source) : (d.write path text).read script = .ok source := by
  obtain ⟨last, hlast, hname⟩ := exists_getLast?_place free
  unfold read at h ⊢
  cases hresolve : d.resolve script with
  | error e => simp [hresolve] at h
  | ok t =>
    rw [hresolve] at h
    obtain ⟨t', hresolve', hbelow⟩ := resolve_write free text hlast hresolve
    cases t with
    | directory | link => cases h
    | file old =>
      rcases hbelow with (rfl | ⟨names, hnames, room, rfl⟩) | ⟨_, hfile⟩
      · rw [hresolve']
        exact h
      · -- There is no room below a file.
        cases names with
        | nil => cases hnames
        | cons =>
          obtain ⟨_, ⟨⟩, _⟩ := room
      · rw [isScriptName_of_last hfile, ← hname, other] at hscript
        cases hscript

end Disk

end Dialogue.Files
