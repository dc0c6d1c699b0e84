import Mathlib.Data.Set.Card
import Dialogue.CommandLine.Source
import Dialogue.Proofs.Writing
import Dialogue.Table
import Dialogue.TestCase.Run

/-!
# One script below a directory

A directory stands for a script if exactly one regular file at any depth has the name of a script.
What else there is makes no difference, nor does the order in which the entries of a directory are
visited. Test cases and the command line look for scripts in the same way.
-/
namespace Dialogue.Files

namespace Tree

/-- What stands where in a tree, the place being told by the names on the way down. -/
inductive Leads : Tree → List String → Tree → Prop
  | here (t : Tree) : Leads t [] t
  | down {entries : List (String × Tree)} {name : String} {t u : Tree} {names : List String}
      (entry : (name, t) ∈ entries) (rest : Leads t names u) :
      Leads (.directory entries) (name :: names) u

/-- Whether a regular file with the name of a script stands at a place. -/
def HasScript (t : Tree) (names : List String) : Prop :=
  ∃ content stem, t.Leads names (.file content) ∧ names.getLast? = some (stem ++ scriptSuffix)

/-- Whether a script stands at a place and nowhere else. -/
def Sole (t : Tree) (names : List String) : Prop :=
  t.HasScript names ∧ ∀ others, t.HasScript others → others = names

/-- What the name of an entry looks like. -/
structure EntryName (name : String) : Prop where
  named : isName name
  plain : name ≠ ".." ∧ name.utf8ByteSize ≤ maxNameSize
  whole : '/' ∉ name.toList

/-- The entries of every directory have proper names, no two the same. -/
inductive Tidy : Tree → Prop
  | file (content : List UInt8) : Tidy (.file content)
  | link : Tidy .link
  | directory {entries : List (String × Tree)} (distinct : (entries.map Prod.fst).Nodup)
      (named : ∀ e ∈ entries, EntryName e.1) (below : ∀ e ∈ entries, Tidy e.2) :
      Tidy (.directory entries)

/-- Every directory of a tree that stands at `path` can be opened at its path. -/
inductive Opens : String → Tree → Prop
  | file (path : String) (content : List UInt8) : Opens path (.file content)
  | link (path : String) : Opens path .link
  | directory {path : String} {entries : List (String × Tree)} (fault : pathFault? path = none)
      (below : ∀ e ∈ entries, Opens (join path e.1) e.2) : Opens path (.directory entries)

/-- The same tree but for the order of entries. -/
inductive Reordered : Tree → Tree → Prop
  | refl (t : Tree) : Reordered t t
  | entries {xs ys : List (String × Tree)} (perm : xs.Perm ys) :
      Reordered (.directory xs) (.directory ys)
  | within {name : String} {t u : Tree} (xs ys : List (String × Tree)) (h : Reordered t u) :
      Reordered (.directory (xs ++ (name, t) :: ys)) (.directory (xs ++ (name, u) :: ys))
  | trans {t u v : Tree} (left : Reordered t u) (right : Reordered u v) : Reordered t v

end Tree

open Dialogue.Files.Tree (Leads Tidy Opens Reordered EntryName)

variable {entries : List (String × Tree)} {t u : Tree} {name path directory : String}
  {names : List String}

theorem isScriptName_iff : isScriptName name ↔ ∃ stem, name = stem ++ scriptSuffix := by
  rw [isScriptName, List.isSuffixOf_iff_suffix]
  constructor
  · rintro ⟨stem, hstem⟩
    refine ⟨String.ofList stem, String.toList_inj.mp ?_⟩
    rw [String.toList_append, String.toList_ofList, hstem]
  · rintro ⟨stem, rfl⟩
    rw [String.toList_append]
    exact List.suffix_append _ _

/-- A file below a directory is an entry or below one. -/
theorem leads_file_iff {content : List UInt8} :
    (Tree.directory entries).Leads names (.file content) ↔
      ∃ e ∈ entries, ∃ rest, names = e.1 :: rest ∧ e.2.Leads rest (.file content) := by
  constructor
  · intro h
    cases h with
    | down entry rest => exact ⟨_, entry, _, rfl, rest⟩
  · rintro ⟨e, he, rest, rfl, hrest⟩
    exact .down he hrest

theorem leads_entry_iff {content : List UInt8} :
    (Tree.directory [(name, t)]).Leads names (.file content) ↔
      ∃ rest, names = name :: rest ∧ t.Leads rest (.file content) := by
  simp only [leads_file_iff, List.mem_singleton, exists_eq_left]

/-- A script stands below one of the entries. -/
theorem hasScript_entries : (Tree.directory entries).HasScript names ↔
    ∃ e ∈ entries, (Tree.directory [e]).HasScript names := by
  constructor
  · rintro ⟨content, stem, hleads, hlast⟩
    obtain ⟨e, he, rest, hnames, hrest⟩ := leads_file_iff.mp hleads
    exact ⟨e, he, content, stem, leads_entry_iff.mpr ⟨rest, hnames, hrest⟩, hlast⟩
  · rintro ⟨e, he, content, stem, hleads, hlast⟩
    obtain ⟨rest, hnames, hrest⟩ := leads_entry_iff.mp hleads
    exact ⟨content, stem, leads_file_iff.mpr ⟨e, he, rest, hnames, hrest⟩, hlast⟩

theorem hasScript_file {content : List UInt8} :
    (Tree.directory [(name, .file content)]).HasScript names ↔
      names = [name] ∧ isScriptName name := by
  constructor
  · rintro ⟨_, stem, hleads, hlast⟩
    obtain ⟨rest, rfl, hrest⟩ := leads_entry_iff.mp hleads
    cases hrest
    exact ⟨rfl, isScriptName_iff.mpr ⟨stem, Option.some.inj hlast⟩⟩
  · rintro ⟨rfl, hname⟩
    obtain ⟨stem, rfl⟩ := isScriptName_iff.mp hname
    exact ⟨content, stem, leads_entry_iff.mpr ⟨[], rfl, .here _⟩, rfl⟩

theorem not_hasScript_link : ¬ (Tree.directory [(name, .link)]).HasScript names := by
  rintro ⟨_, _, hleads, -⟩
  obtain ⟨rest, rfl, hrest⟩ := leads_entry_iff.mp hleads
  cases hrest

/-- A directory is no script, whatever its name, but there may be some below it. -/
theorem hasScript_directory : (Tree.directory [(name, .directory entries)]).HasScript names ↔
    ∃ rest, (Tree.directory entries).HasScript rest ∧ name :: rest = names := by
  constructor
  · rintro ⟨content, stem, hleads, hlast⟩
    obtain ⟨rest, rfl, hrest⟩ := leads_entry_iff.mp hleads
    obtain ⟨_, _, more, rfl, _⟩ := leads_file_iff.mp hrest
    exact ⟨_, ⟨content, stem, hrest, by simpa using hlast⟩, rfl⟩
  · rintro ⟨rest, ⟨content, stem, hleads, hlast⟩, rfl⟩
    exact ⟨content, stem, leads_entry_iff.mpr ⟨rest, rfl, hleads⟩, List.mem_getLast?_cons hlast⟩

mutual

/-- The places of all scripts in a tree that is the entry `name` of a directory. -/
def scriptPlaces (name : String) : Tree → List (List String)
  | .file _ => if isScriptName name then [[name]] else []
  | .link => []
  | .directory entries => (scriptPlacesIn entries).map (name :: ·)
termination_by structural t => t

def scriptPlacesIn : List (String × Tree) → List (List String)
  | [] => []
  | (name, t) :: rest => scriptPlaces name t ++ scriptPlacesIn rest
termination_by structural entries => entries

end

mutual

theorem mem_scriptPlaces {name : String} {names : List String} {t : Tree} :
    names ∈ scriptPlaces name t ↔ (Tree.directory [(name, t)]).HasScript names := by
  match t with
  | .file content =>
    rw [hasScript_file, scriptPlaces]
    split
    · next hname => simp [hname]
    · next hname => simp [hname]
  | .link =>
    rw [scriptPlaces]
    exact iff_of_false List.not_mem_nil not_hasScript_link
  | .directory entries =>
    rw [hasScript_directory, scriptPlaces, List.mem_map]
    simp only [mem_scriptPlacesIn]
termination_by structural t

theorem mem_scriptPlacesIn {names : List String} {entries : List (String × Tree)} :
    names ∈ scriptPlacesIn entries ↔ (Tree.directory entries).HasScript names := by
  match entries with
  | [] =>
    rw [scriptPlacesIn, hasScript_entries]
    simp only [List.not_mem_nil, false_and, exists_false]
  | (name, t) :: rest =>
    rw [scriptPlacesIn, List.mem_append, mem_scriptPlaces, mem_scriptPlacesIn,
      @hasScript_entries rest, @hasScript_entries ((name, t) :: rest), List.exists_mem_cons_iff]
termination_by structural entries

end

theorem scriptPlacesIn_eq_flatMap (entries : List (String × Tree)) :
    scriptPlacesIn entries = entries.flatMap fun e => scriptPlaces e.1 e.2 := by
  induction entries with
  | nil => rfl
  | cons e rest ih => rw [scriptPlacesIn, ih, List.flatMap_cons]

theorem scriptsIn_eq_flatMap (path : String) (entries : List (String × Tree)) :
    scriptsIn path entries = entries.flatMap fun e => scripts (join path e.1) e.2 := by
  induction entries with
  | nil => rfl
  | cons e rest ih => rw [scriptsIn, ih, List.flatMap_cons]

/-- Every place below an entry begins with its name. -/
theorem head?_of_mem_scriptPlaces (h : names ∈ scriptPlaces name t) : names.head? = some name := by
  obtain ⟨_, _, hleads, -⟩ := mem_scriptPlaces.mp h
  obtain ⟨rest, rfl, -⟩ := leads_entry_iff.mp hleads
  rfl

theorem nodup_scriptPlacesIn (distinct : (entries.map Prod.fst).Nodup)
    (below : ∀ e ∈ entries, (scriptPlaces e.1 e.2).Nodup) : (scriptPlacesIn entries).Nodup := by
  rw [scriptPlacesIn_eq_flatMap, List.nodup_flatMap]
  refine ⟨below, (List.pairwise_map.mp distinct).imp ?_⟩
  intro e f hne names he hf
  have hhead := head?_of_mem_scriptPlaces he
  rw [head?_of_mem_scriptPlaces hf] at hhead
  exact hne (Option.some.inj hhead).symm

/-- No place is listed twice. -/
theorem nodup_scriptPlaces (tidy : t.Tidy) (name : String) : (scriptPlaces name t).Nodup := by
  induction tidy generalizing name with
  | file content =>
    rw [scriptPlaces]
    split
    · exact List.nodup_singleton _
    · exact List.nodup_nil
  | link => exact List.nodup_nil
  | directory distinct named below ih =>
    rw [scriptPlaces]
    exact (nodup_scriptPlacesIn distinct fun e he => ih e he e.1).map List.cons_injective

theorem nodup_places (tidy : (Tree.directory entries).Tidy) : (scriptPlacesIn entries).Nodup := by
  cases tidy with
  | directory distinct named below =>
    exact nodup_scriptPlacesIn distinct fun e he => nodup_scriptPlaces (below e he) e.1

/-- There are as many places as are listed. -/
theorem ncard_hasScript (tidy : (Tree.directory entries).Tidy) :
    {names | (Tree.directory entries).HasScript names}.ncard = (scriptPlacesIn entries).length := by
  have hset : {names | (Tree.directory entries).HasScript names} =
      ↑(scriptPlacesIn entries).toFinset := by
    rw [List.coe_toFinset]
    exact Set.ext fun names => mem_scriptPlacesIn.symm
  rw [hset, Set.ncard_coe_finset, List.toFinset_card_of_nodup (nodup_places tidy)]

/-- A place is the only one if and only if nothing else is listed. -/
theorem sole_iff (tidy : (Tree.directory entries).Tidy) :
    (Tree.directory entries).Sole names ↔ scriptPlacesIn entries = [names] := by
  rw [← List.perm_singleton,
    List.perm_ext_iff_of_nodup (nodup_places tidy) (List.nodup_singleton names)]
  simp only [mem_scriptPlacesIn, List.mem_singleton]
  constructor
  · rintro ⟨hthere, honly⟩ others
    exact ⟨honly others, fun h => h ▸ hthere⟩
  · intro h
    exact ⟨(h names).mpr rfl, fun others => (h others).mp⟩

theorem fault_of_opens (opens : (Tree.directory entries).Opens path) : pathFault? path = none := by
  cases opens
  assumption

theorem scriptsIn_of_below (below : ∀ e ∈ entries,
      scripts (join path e.1) e.2 = (scriptPlaces e.1 e.2).map (·.foldl join path)) :
    scriptsIn path entries = (scriptPlacesIn entries).map (·.foldl join path) := by
  rw [scriptsIn_eq_flatMap, scriptPlacesIn_eq_flatMap, List.map_flatMap]
  exact List.flatMap_congr below

/-- Where every directory can be opened, all scripts are found at their paths. -/
theorem scripts_eq_map (opens : t.Opens path) {directory name : String}
    (hpath : path = join directory name) :
    scripts path t = (scriptPlaces name t).map (·.foldl join directory) := by
  induction opens generalizing directory name with
  | file path content =>
    subst hpath
    rw [scripts, scriptPlaces, isScriptName_join]
    split <;> rfl
  | link path => rfl
  | @directory path entries fault below ih =>
    have hentries := scriptsIn_of_below fun e he => ih e he rfl
    rw [scripts, fault, scriptPlaces, List.map_map, hentries, hpath]
    rfl

theorem scriptsIn_eq_map (opens : (Tree.directory entries).Opens directory) :
    scriptsIn directory entries = (scriptPlacesIn entries).map (·.foldl join directory) := by
  cases opens with
  | directory fault below => exact scriptsIn_of_below fun e he => scripts_eq_map (below e he) rfl

/-- A last component that stays where it is can be left out. -/
theorem walk_of_concat {here t : Tree} {above : List Tree} {names : List String}
    (h : walk here above (names ++ [""]) = .ok t) : walk here above names = .ok t := by
  induction names generalizing here above with
  | nil =>
    cases here with
    | file | link => cases h
    | directory entries => exact h
  | cons first names ih =>
    cases here with
    | file | link => cases h
    | directory entries =>
      obtain ⟨next, hstep, hwalk⟩ := walk_cons_eq_ok_iff.mp h
      exact walk_cons_eq_ok_iff.mpr ⟨next, hstep, ih hwalk⟩

/-- From a directory a name leads on to its entry. -/
theorem walk_concat {here : Tree} {above : List Tree} (hname : EntryName name)
    (h : walk here above names = .ok (.directory entries)) (hentry : entries.lookup name = some t) :
    walk here above (names ++ [name]) = .ok t := by
  induction names generalizing here above with
  | nil =>
    obtain rfl := Except.ok.inj h
    have hgo : ¬ (name = "" ∨ name = ".") := by simpa [isName] using hname.named
    simp only [List.nil_append, walk, hgo, hname.plain.1, Nat.not_lt.mpr hname.plain.2, hentry,
      if_false]
  | cons first names ih =>
    cases here with
    | file | link => cases h
    | directory entries =>
      obtain ⟨next, hstep, hwalk⟩ := walk_cons_eq_ok_iff.mp h
      exact walk_cons_eq_ok_iff.mpr ⟨next, hstep, ih hwalk⟩

/-- The components of the path of an entry, after those of its directory. -/
theorem components_join (base : String) (whole : '/' ∉ name.toList) :
    components (join base name) = components base ++ [name] ∨
      ∃ init, components base = init ++ [""] ∧ components (join base name) = init ++ [name] := by
  have hpieces : pieces '/' name.toList = [name.toList] := pieces_of_not_mem whole
  have hrelative : isAbsolute name = false := by
    rw [← Bool.not_eq_true]
    intro h
    exact whole (List.mem_of_head? (by simpa [isAbsolute] using h))
  unfold join
  rw [hrelative, if_neg Bool.false_ne_true]
  split
  · next hlast =>
    obtain ⟨init, hinit⟩ := List.getLast?_eq_some_iff.mp hlast
    refine .inr ⟨(pieces '/' init).map String.ofList, ?_, ?_⟩
    · rw [components, hinit, pieces_append_cons, List.map_append]
      rfl
    · rw [components, String.toList_append, hinit, List.append_assoc, List.singleton_append,
        pieces_append_cons, hpieces, List.map_append, List.map_singleton, String.ofList_toList]
  · refine .inl ?_
    have hchars : (base ++ "/" ++ name).toList = base.toList ++ '/' :: name.toList := by simp
    rw [components, hchars, pieces_append_cons, hpieces, List.map_append, List.map_singleton,
      String.ofList_toList]
    rfl

/-- The path of an entry leads to it. -/
theorem resolve_join {d : Disk} (there : d.resolve directory = .ok (.directory entries))
    (hname : EntryName name) (hentry : entries.lookup name = some t)
    (fault : pathFault? (join directory name) = none) :
    d.resolve (join directory name) = .ok t := by
  unfold Disk.resolve at there ⊢
  rw [fault]
  cases hfault : pathFault? directory with
  | some e => simp [hfault] at there
  | none =>
    rw [hfault] at there
    rcases components_join directory hname.whole with hjoin | ⟨init, hbase, hjoin⟩
    · rw [hjoin]
      exact walk_concat hname there hentry
    · rw [hbase] at there
      rw [hjoin]
      exact walk_concat hname (walk_of_concat there) hentry

/-- The path of a place leads to what stands there. -/
theorem resolve_place {d : Disk} (there : d.resolve directory = .ok t) (tidy : t.Tidy)
    (opens : t.Opens directory) (leads : t.Leads names u)
    (fault : pathFault? (names.foldl join directory) = none) :
    d.resolve (names.foldl join directory) = .ok u := by
  induction leads generalizing directory with
  | here t => exact there
  | @down entries name t u names entry rest ih =>
    cases tidy with
    | directory distinct named below =>
    cases opens with
    | directory _ opened =>
    have hopens : t.Opens (join directory name) := opened _ entry
    have hfault : pathFault? (join directory name) = none := by
      cases rest with
      | here => exact fault
      | down => exact fault_of_opens hopens
    exact ih (resolve_join there (named _ entry) ((Table.lookup_eq_some distinct).mpr entry) hfault)
      (below _ entry) hopens fault

/-- An answer that is exact for the tree at `directory`, in somebody's own words: the path of the
only script, or an error if there is none, or another with their number if there are several. -/
structure Exact {ε : Type} (directory : String) (t : Tree) (missing : ε) (several : Nat → ε)
    (answer : Except ε String) : Prop where
  found : ∀ p, answer = .ok p ↔ ∃ names, t.Sole names ∧ p = names.foldl join directory
  absent : answer = .error missing ↔ ∀ names, ¬ t.HasScript names
  ambiguous : ∀ n, answer = .error (several n) ↔ {names | t.HasScript names}.ncard = n ∧ 2 ≤ n
  total : (∃ p, answer = .ok p) ∨ answer = .error missing ∨ ∃ n, answer = .error (several n)

/-- An answer in words for the two errors. -/
def worded {ε : Type} (missing : ε) (several : Nat → ε) :
    Except LookupError String → Except ε String
  | .ok p => .ok p
  | .error .none => .error missing
  | .error (.several n) => .error (several n)

/-- An exact answer is exact in any words that keep the errors apart. -/
theorem Exact.worded {ε : Type} {missing : ε} {several : Nat → ε}
    {answer : Except LookupError String} (apart : ∀ n, several n ≠ missing)
    (distinct : ∀ m n, several m = several n → m = n)
    (h : Exact directory t LookupError.none .several answer) :
    Exact directory t missing several (worded missing several answer) where
  found p := by
    rw [← h.found p]
    rcases answer with (_ | n) | q <;> simp [Files.worded]
  absent := by
    rw [← h.absent]
    rcases answer with (_ | n) | q <;> simp [Files.worded, apart]
  ambiguous n := by
    rw [← h.ambiguous n]
    rcases answer with (_ | m) | q
    · simp [Files.worded, (apart n).symm]
    · simpa [Files.worded] using ⟨distinct m n, congrArg several⟩
    · simp [Files.worded]
  total := by
    rcases answer with (_ | n) | p
    · exact .inr (.inl rfl)
    · exact .inr (.inr ⟨n, rfl⟩)
    · exact .inl ⟨p, rfl⟩

variable {d : Disk}

theorem findScript_directory (there : d.resolve directory = .ok (.directory entries))
    (opens : (Tree.directory entries).Opens directory) :
    d.findScript directory = theOnly ((scriptPlacesIn entries).map (·.foldl join directory)) := by
  simp only [Disk.findScript, there, scripts, fault_of_opens opens, scriptsIn_eq_map opens,
    Option.isSome_none]
  rfl

/-- A lookup below a directory is exact. -/
theorem exact_findScript (there : d.resolve directory = .ok (.directory entries))
    (tidy : (Tree.directory entries).Tidy) (opens : (Tree.directory entries).Opens directory) :
    Exact directory (.directory entries) LookupError.none .several (d.findScript directory) := by
  rw [findScript_directory there opens]
  constructor
  · intro p
    rw [theOnly_eq_ok_iff, List.map_eq_singleton_iff]
    simp only [sole_iff tidy, @eq_comm _ p]
  · rw [theOnly_eq_none_iff, List.map_eq_nil_iff, List.eq_nil_iff_forall_not_mem]
    simp only [mem_scriptPlacesIn]
  · intro n
    rw [theOnly_eq_several_iff, List.length_map, ncard_hasScript tidy]
  · generalize theOnly ((scriptPlacesIn entries).map (·.foldl join directory)) = answer
    rcases answer with (_ | n) | p
    · exact .inr (.inl rfl)
    · exact .inr (.inr ⟨n, rfl⟩)
    · exact .inl ⟨p, rfl⟩

theorem theOnly_perm {xs ys : List String} (h : xs.Perm ys) : theOnly xs = theOnly ys := by
  match xs, ys, h with
  | [], ys, h => rw [h.nil_eq]
  | [x], ys, h => rw [h.singleton_eq]
  | x :: y :: rest, ys, h =>
    have hlength := h.length_eq
    have hys : theOnly ys = .error (.several (rest.length + 2)) := by
      rw [theOnly_eq_several_iff, ← hlength]
      simp
    rw [hys]
    rfl

/-- Whatever the order of entries, the same scripts are found. -/
theorem scripts_perm (h : t.Reordered u) (path : String) :
    (scripts path t).Perm (scripts path u) := by
  induction h generalizing path with
  | refl t => exact .refl _
  | entries perm =>
    rw [scripts, scripts]
    split
    · exact .refl _
    · rw [scriptsIn_eq_flatMap, scriptsIn_eq_flatMap]
      exact perm.flatMap_right _
  | @within name t u xs ys h ih =>
    rw [scripts, scripts]
    split
    · exact .refl _
    · simp only [scriptsIn_eq_flatMap, List.flatMap_append, List.flatMap_cons]
      exact ((ih (join path name)).append_right _).append_left _
  | trans left right ihl ihr => exact (ihl path).trans (ihr path)

/-- Trees with scripts at the same places have them listed alike, but for the order. -/
theorem scriptPlacesIn_perm {entries' : List (String × Tree)}
    (tidy : (Tree.directory entries).Tidy) (tidy' : (Tree.directory entries').Tidy)
    (same : ∀ names, (Tree.directory entries').HasScript names ↔
      (Tree.directory entries).HasScript names) :
    (scriptPlacesIn entries').Perm (scriptPlacesIn entries) := by
  rw [List.perm_ext_iff_of_nodup (nodup_places tidy') (nodup_places tidy)]
  simpa only [mem_scriptPlacesIn] using same

/-- Entries that are not scripts make no difference. -/
theorem findScript_congr {d' : Disk} {entries' : List (String × Tree)}
    (there : d.resolve directory = .ok (.directory entries))
    (tidy : (Tree.directory entries).Tidy) (opens : (Tree.directory entries).Opens directory)
    (there' : d'.resolve directory = .ok (.directory entries'))
    (tidy' : (Tree.directory entries').Tidy) (opens' : (Tree.directory entries').Opens directory)
    (same : ∀ names, (Tree.directory entries').HasScript names ↔
      (Tree.directory entries).HasScript names) :
    d'.findScript directory = d.findScript directory := by
  rw [findScript_directory there opens, findScript_directory there' opens']
  exact theOnly_perm ((scriptPlacesIn_perm tidy tidy' same).map _)

/-- The order of entries makes no difference. -/
theorem findScript_reordered {d' : Disk} (there : d.resolve directory = .ok t)
    (there' : d'.resolve directory = .ok u) (h : t.Reordered u) :
    d'.findScript directory = d.findScript directory := by
  simp only [Disk.findScript, there, there']
  exact theOnly_perm (scripts_perm h directory).symm

end Dialogue.Files

namespace Dialogue

open Files

theorem TestCase.findScript_eq (d : Disk) (directory : String) :
    findScript d directory =
      worded (.noScript directory) (.severalScripts directory) (d.findScript directory) := by
  unfold findScript
  rcases d.findScript directory with (_ | n) | p <;> rfl

namespace CommandLine

variable {d : Disk} {raw directory : String}

theorem locate_directory {entries : List (String × Tree)} (given : d.absolute raw = directory)
    (there : d.resolve directory = .ok (.directory entries)) :
    locate d raw =
      worded (.noScript directory) (.severalScripts directory) (d.findScript directory) := by
  unfold locate
  simp only [given, there, Tree.isDirectory, if_true]
  rcases d.findScript directory with (_ | n) | p <;> rfl

theorem locate_file {content : List UInt8}
    (there : d.resolve (d.absolute raw) = .ok (.file content)) :
    locate d raw = .ok (d.absolute raw) := by
  unfold locate
  simp only [there, Tree.isDirectory, Bool.false_eq_true, if_false]

end CommandLine

namespace Files

open CommandLine (locate source titleOf)

/-- Test cases and the command line find a script exactly if it is the only one at its path below
the directory, and tell none from several otherwise. -/
theorem lookup_exact {d : Disk} {directory : String} {entries : List (String × Tree)}
    (there : d.resolve directory = .ok (.directory entries))
    (tidy : (Tree.directory entries).Tidy) (opens : (Tree.directory entries).Opens directory) :
    let t := Tree.directory entries
    Exact directory t (CaseError.noScript directory) (CaseError.severalScripts directory)
        (TestCase.findScript d directory) ∧
      (∀ raw, d.absolute raw = directory →
        Exact directory t (CommandLine.CommandError.noScript directory)
          (CommandLine.CommandError.severalScripts directory) (locate d raw)) ∧
      (∀ names content, t.Leads names (.file content) →
        pathFault? (names.foldl join directory) = none →
          d.resolve (names.foldl join directory) = .ok (.file content)) ∧
      (∀ (d' : Disk) entries', let u := Tree.directory entries'
        d'.resolve directory = .ok u →
          (t.Reordered u ∨
            u.Tidy ∧ u.Opens directory ∧ ∀ names, u.HasScript names ↔ t.HasScript names) →
          TestCase.findScript d' directory = TestCase.findScript d directory ∧
            ∀ raw raw', d.absolute raw = directory → d'.absolute raw' = directory →
              locate d' raw' = locate d raw) ∧
      ∀ raw content, d.resolve (d.absolute raw) = .ok (.file content) →
        locate d raw = .ok (d.absolute raw) ∧
          ∀ text, Disk.decode content = .ok text →
            source d raw = .ok ⟨d.absolute raw, titleOf (d.absolute raw), text⟩ := by
  intro t
  have hexact := exact_findScript there tidy opens
  refine ⟨?_, ?_, ?_, ?_, ?_⟩
  · rw [TestCase.findScript_eq]
    exact hexact.worded (fun _ => nofun) fun _ _ h => (CaseError.severalScripts.inj h).2
  · intro raw given
    rw [CommandLine.locate_directory given there]
    exact hexact.worded (fun _ => nofun) fun _ _ h =>
      (CommandLine.CommandError.severalScripts.inj h).2
  · exact fun names content leads fault => resolve_place there tidy opens leads fault
  · intro d' entries' u there' alike
    have hfound : d'.findScript directory = d.findScript directory := by
      rcases alike with hreordered | ⟨tidy', opens', same⟩
      · exact findScript_reordered there there' hreordered
      · exact findScript_congr there tidy opens there' tidy' opens' same
    refine ⟨by rw [TestCase.findScript_eq, TestCase.findScript_eq, hfound], ?_⟩
    intro raw raw' given given'
    rw [CommandLine.locate_directory given there, CommandLine.locate_directory given' there',
      hfound]
  · intro raw content hfile
    have hlocate : locate d raw = .ok (d.absolute raw) := CommandLine.locate_file hfile
    refine ⟨hlocate, fun text htext => ?_⟩
    unfold source
    simp only [hlocate, Disk.read, hfile, htext]

/-- A link and a directory have names of scripts; the only script is below the directory. -/
theorem gate_found_below :
    let gate : Tree := .file "\x7b\x7d".toUTF8.data.toList
    let drafts : Tree := .directory [("notes.txt", .file []), ("gate.conversation.json", gate)]
    let entries : List (String × Tree) :=
      [("old.conversation.json", .link), ("drafts.conversation.json", drafts)]
    let d : Disk := ⟨.directory [("demo", .directory entries)], "/"⟩
    let d' : Disk := ⟨.directory [("demo", .directory entries.reverse)], "/"⟩
    let path := "/demo/drafts.conversation.json/gate.conversation.json"
    d.resolve "/demo" = .ok (.directory entries) ∧ (Tree.directory entries).Tidy ∧
      (Tree.directory entries).Opens "/demo" ∧ TestCase.findScript d "/demo" = .ok path ∧
      locate d "demo" = .ok path ∧ TestCase.findScript d' "/demo" = .ok path ∧
      locate d path = .ok path := by
  intro gate drafts entries d d' path
  have there : d.resolve "/demo" = .ok (.directory entries) := by rfl
  have hdrafts : drafts.Tidy := by
    refine .directory (by decide) (List.forall_mem_cons.mpr ⟨?_, List.forall_mem_singleton.mpr ?_⟩)
      (List.forall_mem_cons.mpr ⟨.file _, List.forall_mem_singleton.mpr (.file _)⟩)
    · exact ⟨by decide, by decide, by decide⟩
    · exact ⟨by decide, by decide, by decide⟩
  have tidy : (Tree.directory entries).Tidy := by
    refine .directory (by decide) (List.forall_mem_cons.mpr ⟨?_, List.forall_mem_singleton.mpr ?_⟩)
      (List.forall_mem_cons.mpr ⟨.link, List.forall_mem_singleton.mpr hdrafts⟩)
    · exact ⟨by decide, by decide, by decide⟩
    · exact ⟨by decide, by decide, by decide⟩
  have opens : (Tree.directory entries).Opens "/demo" := by
    refine .directory (by decide)
      (List.forall_mem_cons.mpr ⟨.link _, List.forall_mem_singleton.mpr ?_⟩)
    exact .directory (by decide)
      (List.forall_mem_cons.mpr ⟨.file _ _, List.forall_mem_singleton.mpr (.file _ _)⟩)
  have hsole : (Tree.directory entries).Sole
      ["drafts.conversation.json", "gate.conversation.json"] := (sole_iff tidy).mpr (by rfl)
  obtain ⟨htest, hplay, hpath, halike, hfile⟩ := lookup_exact there tidy opens
  have hfound : TestCase.findScript d "/demo" = .ok path :=
    (htest.found path).mpr ⟨_, hsole, by decide⟩
  have horder : (Tree.directory entries).Reordered (.directory entries.reverse) :=
    .entries (List.reverse_perm entries).symm
  have hgate : d.resolve path = .ok gate := by
    refine hpath ["drafts.conversation.json", "gate.conversation.json"] _ ?_ (by decide)
    exact .down (List.mem_cons_of_mem _ List.mem_cons_self)
      (.down (List.mem_cons_of_mem _ List.mem_cons_self) (.here _))
  have habsolute : d.absolute path = path := by decide
  have hgiven := (hfile path _ (by rw [habsolute]; exact hgate)).1
  rw [habsolute] at hgiven
  refine ⟨there, tidy, opens, hfound, ?_, ?_, hgiven⟩
  · exact ((hplay "demo" (by decide)).found path).mpr ⟨_, hsole, by decide⟩
  · exact (halike d' entries.reverse (by rfl) (.inl horder)).1.trans hfound

end Files

end Dialogue
