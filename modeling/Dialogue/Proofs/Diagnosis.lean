import Mathlib.Order.Bounds.Basic
import Dialogue.Proofs.Recording

/-!
# What a failed check tells

A check that finds something else than is expected tells how much there is, or where the two first
differ, with texts from which both can be read again. Whatever goes wrong before that is told as it is.
-/
namespace Dialogue

open Json (Format)

/-- What a report of a difference consists of: two lengths and a text of all that was observed, or an
index and two texts. -/
inductive Difference where
  | count (expected actual : Nat) (observed : String)
  | entry (index : Nat) (expected actual : String)
  deriving DecidableEq, Repr

namespace Difference

def message : Difference → String
  | .count expected actual observed =>
    "Expected event count " ++ toString expected ++ ", actual " ++ toString actual ++
      ". observed=" ++ observed
  | .entry index expected actual =>
    "Event mismatch at index " ++ toString index ++ ". expected=" ++ expected ++ " actual=" ++ actual

end Difference

namespace CaseError

def difference? : CaseError → Option Difference
  | .countMismatch expected observed =>
    some (.count expected observed.length (TestCase.expectationsJson observed).pretty)
  | .mismatch index expected actual =>
    some (.entry index expected.toJson.compact actual.toJson.compact)
  | _ => none

/-- A report says no more than its parts. -/
theorem message_of_difference {e : CaseError} {diff : Difference} (h : e.difference? = some diff) :
    e.message = diff.message := by
  cases e with
  | countMismatch | mismatch =>
    obtain rfl := Option.some.inj h
    rfl
  | _ => cases h

end CaseError

namespace TestCase

def expectationsFormat : Format (List Expectation) :=
  ⟨Json.list Expectation.tagged.decoder, expectationsJson⟩

/-- Different expectations have different texts. -/
theorem compact_toJson_injective {x y : Expectation} (h : x.toJson.compact = y.toJson.compact) :
    x = y := by
  have hread : Expectation.format.decode x.toJson.compact = .ok x := x.restores
  rw [h] at hread
  exact Except.ok.inj (hread.symm.trans y.restores)

theorem decode_pretty_expectationsJson (xs : List Expectation) :
    expectationsFormat.decode (expectationsJson xs).pretty = .ok xs := by
  have hwritable : (expectationsJson xs).Writable 3 :=
    Json.Value.writable_list (List.forall_mem_map.mpr fun x _ => x.writable_toJson)
  exact Format.decode_pretty (f := expectationsFormat)
    (Json.follows_list (Json.Form.follows_decoder Expectation.forms_describe))
    (hwritable.mono (by decide)) (Json.list?_map Expectation.read?_toJson xs)

variable {expected observed : List Expectation}

/-- The indices at which two lists do not agree. -/
def differing (expected observed : List Expectation) : Set Nat := {k | expected[k]? ≠ observed[k]?}

/-- What a report must tell of two lists that differ. -/
inductive Tells (expected observed : List Expectation) : Difference → Prop
  | count (lengths : expected.length ≠ observed.length) {text : String}
      (read : expectationsFormat.decode text = .ok observed) :
      Tells expected observed (.count expected.length observed.length text)
  | entry (lengths : expected.length = observed.length) {k : Nat} {x y : Expectation} {t u : String}
      (first : IsLeast (differing expected observed) k) (wanted : expected[k]? = some x)
      (actual : observed[k]? = some y) (readWanted : Expectation.format.decode t = .ok x)
      (readActual : Expectation.format.decode u = .ok y) (apart : t ≠ u) :
      Tells expected observed (.entry k t u)

theorem Tells.ne {diff : Difference} (h : Tells expected observed diff) : expected ≠ observed := by
  rintro rfl
  cases h with
  | count lengths => exact lengths rfl
  | entry _ first => exact first.1 rfl

theorem isLeast_differing {k : Nat} {x y : Expectation} (before : expected.take k = observed.take k)
    (wanted : expected[k]? = some x) (actual : observed[k]? = some y) (differ : x ≠ y) :
    IsLeast (differing expected observed) k := by
  constructor
  · intro h
    rw [wanted, actual] at h
    exact differ (Option.some.inj h)
  · intro i hi
    by_contra hlt
    refine hi ?_
    have htake := congrArg (·[i]?) before
    simpa [List.getElem?_take_of_lt (Nat.lt_of_not_le hlt)] using htake

theorem Differ.exists_tells {e : CaseError} (h : Differ expected observed e) :
    ∃ diff, e.difference? = some diff ∧ Tells expected observed diff := by
  cases h with
  | count lengths =>
    exact ⟨_, rfl, .count lengths (decode_pretty_expectationsJson observed)⟩
  | @entry lengths k x y before wanted actual differ =>
    exact ⟨_, rfl, .entry lengths (isLeast_differing before wanted actual differ) wanted actual
      x.restores y.restores fun h => differ (compact_toJson_injective h)⟩

theorem check_of_passed {d : Files.Disk} {directory path : String} {c : TestCase} {r : Report}
    (hread : read d path = .ok c) (passed : run d directory c = .ok r) :
    check d directory path = compare c.expected r.observed := by
  simp only [check, hread, passed]

/-- A comparison fails only if there is a difference to tell. -/
theorem exists_tells_of_compare {e : CaseError} (h : compare expected observed = .error e) :
    ∃ diff, e.difference? = some diff ∧ Tells expected observed diff := by
  have hne : expected ≠ observed := by
    intro heq
    rw [compare_eq_ok_iff.mpr heq] at h
    cases h
  obtain ⟨f, hf, hdiffer⟩ := exists_compare_eq_error hne
  obtain rfl : f = e := Except.error.inj (hf.symm.trans h)
  exact hdiffer.exists_tells

theorem compare_count_iff :
    (∃ e n m text, compare expected observed = .error e ∧
      e.difference? = some (.count n m text)) ↔ expected.length ≠ observed.length := by
  constructor
  · rintro ⟨e, n, m, text, he, hparts⟩
    obtain ⟨diff, hdiff, htells⟩ := exists_tells_of_compare he
    obtain rfl := Option.some.inj (hdiff.symm.trans hparts)
    cases htells with
    | count lengths => exact lengths
  · intro lengths
    exact ⟨.countMismatch expected.length observed, _, _, _, by rw [compare, if_neg lengths], rfl⟩

theorem compare_entry_iff :
    (∃ e k t u, compare expected observed = .error e ∧ e.difference? = some (.entry k t u)) ↔
      expected.length = observed.length ∧ expected ≠ observed := by
  constructor
  · rintro ⟨e, k, t, u, he, hparts⟩
    obtain ⟨diff, hdiff, htells⟩ := exists_tells_of_compare he
    obtain rfl := Option.some.inj (hdiff.symm.trans hparts)
    refine ⟨?_, htells.ne⟩
    cases htells with
    | entry lengths => exact lengths
  · rintro ⟨lengths, hne⟩
    obtain ⟨e, he, hdiffer⟩ := exists_compare_eq_error hne
    cases hdiffer with
    | count unequal => exact absurd lengths unequal
    | entry => exact ⟨_, _, _, _, he, rfl⟩

/-- A check tells exactly what is wrong: first with reading, then with running the test case, and then
where what was observed is not what was expected. -/
theorem check_tells_difference (d : Files.Disk) (directory path : String) :
    (∀ e, read d path = .error e → check d directory path = .error e) ∧
      ∀ c, read d path = .ok c → c.schema = knownSchema ∧
        (∀ e, run d directory c = .error e → check d directory path = .error e) ∧
        ∀ r, run d directory c = .ok r →
          (check d directory path = .ok () ↔ c.expected = r.observed) ∧
          ((∃ e n m text, check d directory path = .error e ∧
              e.difference? = some (.count n m text)) ↔
            c.expected.length ≠ r.observed.length) ∧
          ((∃ e k t u, check d directory path = .error e ∧
              e.difference? = some (.entry k t u)) ↔
            c.expected.length = r.observed.length ∧ c.expected ≠ r.observed) ∧
          ∀ e, check d directory path = .error e → ∃ diff, e.difference? = some diff ∧
            e.message = diff.message ∧ Tells c.expected r.observed diff := by
  refine ⟨fun e he => by simp only [check, he], fun c hread => ?_⟩
  refine ⟨schema_of_read hread, fun e he => by simp only [check, hread, he], fun r passed => ?_⟩
  rw [check_of_passed hread passed]
  refine ⟨compare_eq_ok_iff, compare_count_iff, compare_entry_iff, fun e he => ?_⟩
  obtain ⟨diff, hdiff, htells⟩ := exists_tells_of_compare he
  exact ⟨diff, hdiff, CaseError.message_of_difference hdiff, htells⟩

/-- A directory with one short script, and a test case with these expectations. -/
def helloCaseDisk (expected : List Expectation) : Files.Disk :=
  ⟨.directory [("demo", .directory
    [("case.json", .file (format.encode ⟨knownSchema, [.main], expected⟩).toUTF8.data.toList),
      ("hello.conversation.json", .file helloText.toUTF8.data.toList)])], "/"⟩

theorem helloCaseDisk_onlyScript (expected : List Expectation) :
    (helloCaseDisk expected).OnlyScript "/demo" helloPath helloText where
  found := ⟨_, by rfl, by rfl⟩
  content := by
    have hfile : (helloCaseDisk expected).resolve helloPath =
        .ok (.file helloText.toUTF8.data.toList) := by rfl
    simp only [Files.Disk.read, hfile, Files.decode_toUTF8]

theorem read_helloCaseDisk (expected : List Expectation) :
    read (helloCaseDisk expected) "/demo/case.json" = .ok ⟨knownSchema, [.main], expected⟩ := by
  let c : TestCase := ⟨knownSchema, [.main], expected⟩
  have hfile : (helloCaseDisk expected).resolve "/demo/case.json" =
      .ok (.file (format.encode c).toUTF8.data.toList) := by rfl
  have hparse := parse_of_spells_toJson c.spells_encode
  simp only [read, Files.Disk.read, hfile, Files.decode_toUTF8, hparse, c, if_true]

/-- The right expectations, too few of them, and a wrong one. -/
theorem hello_check_tells_difference :
    let hello (text : String) : List Expectation := [.line "" text [], .cleared, .finished]
    let result (es : List Expectation) := check (helloCaseDisk es) "/demo" "/demo/case.json"
    result (hello "Hello.") = .ok () ∧
      (∃ e text, result [.cleared] = .error e ∧ e.difference? = some (.count 1 3 text) ∧
        expectationsFormat.decode text = .ok (hello "Hello.")) ∧
      (∃ e t u, result (hello "Hello!") = .error e ∧ e.difference? = some (.entry 0 t u) ∧
        t ≠ u) ∧
      check helloDisk "/demo" "/demo/case.json" =
        .error (.unreadable "/demo/case.json" .notFound) := by
  intro hello result
  have passed : ∀ es, run (helloCaseDisk es) "/demo" ⟨knownSchema, [.main], es⟩ =
      .ok ⟨hello "Hello.", 1, true⟩ := by
    intro es
    have hscript : readScript (helloCaseDisk es) "/demo" = readScript helloDisk "/demo" :=
      (readScript_of_only (helloCaseDisk_onlyScript es)).trans
        (readScript_of_only helloDisk_onlyScript).symm
    have hrun : run (helloCaseDisk es) "/demo" ⟨knownSchema, [.main], es⟩ =
        run helloDisk "/demo" ⟨knownSchema, [.main], []⟩ := run_congr hscript rfl
    refine hrun.trans ?_
    decide +kernel
  have facts := fun es => ((check_tells_difference (helloCaseDisk es) "/demo" "/demo/case.json").2
    _ (read_helloCaseDisk es)).2.2 _ (passed es)
  refine ⟨(facts _).1.mpr rfl, ?_, ?_, ?_⟩
  · obtain ⟨e, n, m, text, he, hparts⟩ := (facts [.cleared]).2.1.mpr (by decide)
    obtain ⟨diff, hdiff, -, htells⟩ := (facts [.cleared]).2.2.2 e he
    obtain rfl := Option.some.inj (hdiff.symm.trans hparts)
    cases htells with
    | count lengths hread => exact ⟨e, text, he, hparts, hread⟩
  · obtain ⟨e, k, t, u, he, hparts⟩ := (facts (hello "Hello!")).2.2.1.mpr (by decide)
    obtain ⟨diff, hdiff, -, htells⟩ := (facts (hello "Hello!")).2.2.2 e he
    obtain rfl := Option.some.inj (hdiff.symm.trans hparts)
    cases htells with
    | entry _ first _ _ _ _ apart =>
      have hzero : 0 ∈ differing (hello "Hello!") (hello "Hello.") := by
        simp [differing, hello]
      obtain rfl : k = 0 := Nat.le_zero.mp (first.2 hzero)
      exact ⟨e, t, u, he, hparts, apart⟩
  · have hread : read helloDisk "/demo/case.json" =
        .error (.unreadable "/demo/case.json" .notFound) := by rfl
    exact (check_tells_difference helloDisk "/demo" "/demo/case.json").1 _ hread

end TestCase

end Dialogue
