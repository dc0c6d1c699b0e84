import Dialogue.Proofs.Composition
import Dialogue.Proofs.Relaxation

/-!
# Formats side by side

A selection has an action of a test case beside it, and an entry has an expectation. The formats of
the two agree on what they read and write. In all of them the tag is the kind of the value, and
neither the order of the members nor a member without meaning counts.
-/
namespace Dialogue

namespace Json

variable {α : Type}

namespace Tagged

/-- Reads the tag of an object and nothing else. -/
def tagReader : Record String := ⟨"", [.needed tagField text fun s _ => s], ""⟩

def noted : Option (Variant α) → List String × String
  | none => ([], "")
  | some v => ([tagField], v.tag)

variable {t : Tagged α} {depth : Nat}

theorem text_of_tag {n : Node} {v : Variant α} (h : t.tag n = .ok v) :
    text depth n = .ok v.tag := by
  obtain ⟨q, name, rfl, hname, hfind⟩ := tag_eq_ok.mp h
  have htag : v.tag = name := by simpa using List.find?_some hfind
  rw [htag]
  exact hname

theorem Scans.puts_noted {q : Quoted} {n : Node} {found next : Option (Variant α)}
    {kept : List (Quoted × Node)} (h : t.Scans depth q n found next kept) :
    tagReader.Puts depth q n (noted found) (noted next) := by
  cases h with
  | tag hkey hv => exact .put hkey rfl List.not_mem_nil (map_eq_ok.mpr ⟨_, text_of_tag hv, rfl⟩)
  | @other key _ _ hkey hother hv =>
    have hunknown : tagReader.field? key = none := by
      simp [tagReader, Record.field?, Record.Field.needed, Ne.symm hother]
    exact .skipped hkey hunknown (skip_of_value hv)

theorem tagReader_of_scanMembers {members others : List (Quoted × Node)}
    {found found' : Option (Variant α)}
    (h : t.scanMembers depth members found = .ok (found', others)) :
    tagReader.putMembers depth members (noted found).1 (noted found).2 = .ok (noted found') := by
  induction members generalizing found others with
  | nil =>
    obtain ⟨rfl, -⟩ := Prod.mk.inj (Except.ok.inj h)
    rfl
  | cons m members ih =>
    obtain ⟨next, _, _, hscan, hrest, -⟩ := scanMembers_cons_iff.mp h
    exact Record.putMembers_cons_iff.mpr ⟨noted next, hscan.puts_noted, ih hrest⟩

theorem Tells.tagReader_of_ofMembers {kind : α → String} (tells : t.Tells kind)
    {members : List (Quoted × Node)} {x : α} (h : t.ofMembers depth members .closed = .ok x) :
    tagReader.ofMembers depth members .closed = .ok (kind x) := by
  obtain ⟨⟨found, others⟩, hscan, h⟩ := bind_eq_ok.mp h
  obtain ⟨_, -, h⟩ := bind_eq_ok.mp h
  cases found with
  | none => cases h
  | some v =>
    have hkind := tells.kind_of_ofMembers (mem_variants_of_scanMembers (by simp) hscan) h
    have hput := tagReader_of_scanMembers hscan
    rw [hkind]
    exact bind_eq_ok.mpr ⟨_, hput, rfl⟩

end Tagged

/-- The text holds an object with these members, and nothing else. -/
def IsObject (source : String) (members : List (Quoted × Node)) : Prop :=
  document source.toList = ⟨.object members .closed, false⟩

theorem decode_of_document {source : String} {n : Node}
    (h : document source.toList = ⟨n, false⟩) (d : Decoder α) :
    decode d source = d depthLimit n := by
  simp only [decode, h]
  cases d depthLimit n <;> rfl

theorem decode_record {source : String} {members : List (Quoted × Node)}
    (h : IsObject source members) (r : Record α) :
    decode r.decoder source = r.ofMembers 127 members .closed :=
  decode_of_document h r.decoder

theorem decode_tagged {source : String} {members : List (Quoted × Node)}
    (h : IsObject source members) (t : Tagged α) :
    decode t.decoder source = t.ofMembers 127 members .closed :=
  decode_of_document h t.decoder

namespace ObjectText

def text (o : ObjectText) : String := String.ofList o.chars

theorem Sound.isObject {o : ObjectText} (h : o.Sound) : IsObject o.text (o.members.map (·.node)) := by
  rw [IsObject, text, String.toList_ofList]
  exact h.document

end ObjectText

/-- A member that means nothing beside a tag, with a value that can be read one container deep. -/
structure MemberText.Foreign (t : Tagged α) (tag : String) (m : MemberText) : Prop where
  key : ∃ key, m.SpellsKey key ∧ key ∉ t.keys tag
  value : ∃ v, decode (fun _ => Json.value 127) (String.ofList m.value) = .ok v

namespace MemberText.Foreign

variable {t : Tagged α} {tag : String} {m : MemberText}

theorem document_value (h : m.Foreign t tag) :
    (document m.value).trailing = false ∧ ∃ v, Json.value 127 (document m.value).root = .ok v := by
  obtain ⟨v, hv⟩ := h.value
  rw [decode, String.toList_ofList] at hv
  obtain ⟨w, hw, hv⟩ := bind_eq_ok.mp hv
  obtain ⟨_, htrailing, -⟩ := bind_eq_ok.mp hv
  cases hdocument : (document m.value).trailing with
  | false => exact ⟨rfl, w, hw⟩
  | true =>
    rw [hdocument] at htrailing
    cases htrailing

theorem sound (h : m.Foreign t tag) : m.Sound where
  key := by
    obtain ⟨key, hkey, -⟩ := h.key
    exact ⟨key, hkey⟩
  value := by
    obtain ⟨halone, v, hv⟩ := h.document_value
    exact ⟨halone, skip_of_value hv⟩

theorem node (h : m.Foreign t tag) : t.Foreign tag 127 m.node where
  key := by
    obtain ⟨key, hkey, hnot⟩ := h.key
    exact ⟨key, (key_node hkey).2.1, hnot⟩
  value := h.document_value.2

end MemberText.Foreign

theorem MemberText.foreign_compact {t : Tagged α} {tag : String} {m : String × Value}
    (unknown : m.1 ∉ t.keys tag) (writable : m.2.Writable 126) : (compact m).Foreign t tag where
  key := ⟨m.1, spellsKey_compact m, unknown⟩
  value := by
    obtain ⟨n, hn, hdocument⟩ := exists_document_of_spells (spells_compactChars writable.exact)
    refine ⟨canonical m.2, ?_⟩
    rw [decode, String.toList_ofList, compact, hdocument,
      value_of_means hn writable.distinct writable.within]
    rfl

/-- What is written is read again, under the tag of its kind; the order of members and members that
mean nothing make no difference. -/
structure Tagged.Regular (t : Tagged α) (kind : α → String) (toJson : α → Value) : Prop where
  restored : ∀ x, decode t.decoder (toJson x).compact = .ok x
  written : ∀ x, decode tagReader.decoder (toJson x).compact = .ok (kind x)
  named : ∀ {source members x}, IsObject source members → decode t.decoder source = .ok x →
    decode tagReader.decoder source = .ok (kind x)
  moved : ∀ {source source' members members' extra x}, IsObject source members →
    IsObject source' members' → members'.Perm (members ++ extra) →
    (∀ m ∈ extra, t.Foreign (kind x) 127 m) → decode t.decoder source = .ok x →
    decode t.decoder source' = .ok x
  rewritten : ∀ {o o' : ObjectText} {extra x}, o.Sound → Spaces o'.before → Spaces o'.after →
    o'.members.Perm (o.members ++ extra) → (∀ m ∈ extra, m.Foreign t (kind x)) →
    decode t.decoder o.text = .ok x → decode t.decoder o'.text = .ok x

namespace Tagged

variable {t : Tagged α} {kind : α → String}

theorem Tells.named (tells : t.Tells kind) {source : String} {members : List (Quoted × Node)} {x : α}
    (object : IsObject source members) (h : decode t.decoder source = .ok x) :
    decode tagReader.decoder source = .ok (kind x) := by
  rw [decode_record object]
  rw [decode_tagged object] at h
  exact tells.tagReader_of_ofMembers h

theorem Tells.moved (tells : t.Tells kind) (unordered : t.Unordered) {source source' : String}
    {members members' extra : List (Quoted × Node)} {x : α} (object : IsObject source members)
    (object' : IsObject source' members') (order : members'.Perm (members ++ extra))
    (foreign : ∀ m ∈ extra, t.Foreign (kind x) 127 m) (h : decode t.decoder source = .ok x) :
    decode t.decoder source' = .ok x := by
  rw [decode_tagged object] at h
  rw [decode_tagged object']
  exact ofMembers_rearranged unordered tells order foreign h

theorem Tells.rewritten (tells : t.Tells kind) (unordered : t.Unordered) {o o' : ObjectText}
    {extra : List MemberText} {x : α} (sound : o.Sound) (before : Spaces o'.before)
    (after : Spaces o'.after) (order : o'.members.Perm (o.members ++ extra))
    (foreign : ∀ m ∈ extra, m.Foreign t (kind x)) (h : decode t.decoder o.text = .ok x) :
    decode t.decoder o'.text = .ok x := by
  have hsound : o'.Sound := by
    refine ⟨before, fun m hm => ?_, after⟩
    rcases List.mem_append.mp (order.mem_iff.mp hm) with hm | hm
    · exact sound.members m hm
    · exact (foreign m hm).sound
  have hnodes := order.map (·.node)
  rw [List.map_append] at hnodes
  exact tells.moved unordered sound.isObject hsound.isObject hnodes
    (List.forall_mem_map.mpr fun m hm => (foreign m hm).node) h

theorem isObject_compact {members : List (String × Value)}
    (exact : (Value.object members).Throughout Value.Exact) :
    ∃ nodes, IsObject (Value.object members).compact nodes := by
  obtain ⟨n, hn, hdocument⟩ := exists_document_of_spells (spells_compactChars exact)
  cases hn with
  | object written =>
    refine ⟨written.map (·.1), ?_⟩
    rw [IsObject, Value.compact, String.toList_ofList]
    exact hdocument

/-- It is enough that what is written is read again as what it was. -/
theorem Tells.regular (tells : t.Tells kind) (unordered : t.Unordered) {toJson : α → Value}
    (object : ∀ x, ∃ members, toJson x = .object members)
    (exact : ∀ x, (toJson x).Throughout Value.Exact)
    (restores : ∀ x, decode t.decoder (toJson x).compact = .ok x) : t.Regular kind toJson where
  restored := restores
  written x := by
    obtain ⟨members, hmembers⟩ := object x
    obtain ⟨nodes, hnodes⟩ := isObject_compact (hmembers ▸ exact x)
    exact tells.named (hmembers ▸ hnodes) (restores x)
  named := tells.named
  moved := tells.moved unordered
  rewritten := tells.rewritten unordered

end Tagged

theorem Record.unordered_nil (title : String) (x : α) : (⟨title, [], x⟩ : Record α).Unordered :=
  List.forall_mem_nil _

theorem Record.unordered_single (title : String) (f : Record.Field α) (x : α) :
    (⟨title, [f], x⟩ : Record α).Unordered :=
  unordered_of_pairwise (List.pairwise_singleton _ _)

theorem Variant.unit_tells {kind : α → String} {tag : String} {x : α} (h : kind x = tag) :
    (unit tag x).Tells kind :=
  ⟨h, List.forall_mem_nil _⟩

theorem Variant.single_tells {kind : α → String} {tag title : String} {f : Record.Field α} {x : α}
    (h : kind x = tag) (keeps : f.Keeps (kind · = tag)) :
    Variant.Tells ⟨tag, ⟨title, [f], x⟩⟩ kind :=
  ⟨h, List.forall_mem_singleton.mpr keeps⟩

end Json

open Json

namespace Selection

def kind : Selection → String
  | .main => "main"
  | .choice _ => "option"

theorem tells : tagged.Tells kind :=
  List.forall_mem_cons.mpr ⟨Variant.unit_tells rfl, List.forall_mem_cons.mpr
    ⟨Variant.single_tells rfl (Record.Field.keeps_of_set fun _ _ _ => rfl), List.forall_mem_nil _⟩⟩

theorem unordered : tagged.Unordered :=
  List.forall_mem_cons.mpr ⟨Record.unordered_nil _ _,
    List.forall_mem_cons.mpr ⟨Record.unordered_single _ _ _, List.forall_mem_nil _⟩⟩

theorem regular : tagged.Regular kind toJson :=
  tells.regular unordered (fun s => by cases s <;> exact ⟨_, rfl⟩)
    (fun s => s.writable_toJson.exact) restores

end Selection

namespace Action

theorem tells : tagged.Tells kind :=
  List.forall_mem_cons.mpr ⟨Variant.unit_tells rfl, List.forall_mem_cons.mpr
    ⟨Variant.single_tells rfl (Record.Field.keeps_of_set fun _ _ _ => rfl), List.forall_mem_nil _⟩⟩

theorem unordered : tagged.Unordered :=
  List.forall_mem_cons.mpr ⟨Record.unordered_nil _ _,
    List.forall_mem_cons.mpr ⟨Record.unordered_single _ _ _, List.forall_mem_nil _⟩⟩

theorem regular : tagged.Regular kind toJson :=
  tells.regular unordered (fun a => by cases a <;> exact ⟨_, rfl⟩)
    (fun a => a.writable_toJson.exact) restores

end Action

namespace Event

theorem tells : tagged.Tells kind :=
  List.forall_mem_cons.mpr ⟨Variant.unit_tells rfl, List.forall_mem_cons.mpr
    ⟨Variant.unit_tells rfl, List.forall_mem_cons.mpr
      ⟨Variant.single_tells rfl (Record.Field.keeps_of_set fun _ _ _ => rfl),
        List.forall_mem_nil _⟩⟩⟩

theorem unordered : tagged.Unordered :=
  List.forall_mem_cons.mpr ⟨Record.unordered_nil _ _, List.forall_mem_cons.mpr
    ⟨Record.unordered_nil _ _, List.forall_mem_cons.mpr
      ⟨Record.unordered_single _ _ _, List.forall_mem_nil _⟩⟩⟩

theorem regular : tagged.Regular kind toJson :=
  tells.regular unordered (fun e => by cases e <;> exact ⟨_, rfl⟩)
    (fun e => e.writable_toJson.exact) restores

end Event

namespace Entry

theorem tells_lineRecord : Variant.Tells ⟨"line", lineRecord⟩ kind where
  initial := rfl
  put := by
    simp only [lineRecord, List.forall_mem_cons, List.not_mem_nil, false_imp_iff, implies_true,
      and_true]
    and_intros <;> exact Record.Field.keeps_of_set fun _ e h => by cases e <;> exact h

theorem tells : tagged.Tells kind :=
  List.forall_mem_cons.mpr ⟨tells_lineRecord, List.forall_mem_cons.mpr ⟨Variant.unit_tells rfl,
    List.forall_mem_cons.mpr ⟨Variant.unit_tells rfl, List.forall_mem_cons.mpr
      ⟨Variant.single_tells rfl (Record.Field.keeps_of_set fun _ _ _ => rfl),
        List.forall_mem_nil _⟩⟩⟩⟩

theorem unordered_lineRecord : lineRecord.Unordered := by
  refine Record.unordered_of_pairwise ?_
  simp only [lineRecord, List.pairwise_cons, List.forall_mem_cons, List.not_mem_nil, false_imp_iff,
    implies_true, List.Pairwise.nil, and_true]
  and_intros <;> exact Record.Field.commutes_of_set fun _ _ e => by cases e <;> rfl

theorem unordered : tagged.Unordered :=
  List.forall_mem_cons.mpr ⟨unordered_lineRecord, List.forall_mem_cons.mpr
    ⟨Record.unordered_nil _ _, List.forall_mem_cons.mpr ⟨Record.unordered_nil _ _,
      List.forall_mem_cons.mpr ⟨Record.unordered_single _ _ _, List.forall_mem_nil _⟩⟩⟩⟩

theorem regular : tagged.Regular kind toJson :=
  tells.regular unordered (fun e => by cases e <;> exact ⟨_, rfl⟩)
    (fun e => e.writable_toJson.exact) restores

end Entry

namespace Expectation

def kind : Expectation → String
  | .line _ _ _ => "line"
  | .cleared => "cleared"
  | .finished => "end"
  | .message _ => "message"

theorem tells_lineRecord : Variant.Tells ⟨"line", lineRecord⟩ kind where
  initial := rfl
  put := by
    simp only [lineRecord, List.forall_mem_cons, List.not_mem_nil, false_imp_iff, implies_true,
      and_true]
    and_intros <;> exact Record.Field.keeps_of_set fun _ x h => by cases x <;> exact h

theorem tells : tagged.Tells kind :=
  List.forall_mem_cons.mpr ⟨tells_lineRecord, List.forall_mem_cons.mpr ⟨Variant.unit_tells rfl,
    List.forall_mem_cons.mpr ⟨Variant.unit_tells rfl, List.forall_mem_cons.mpr
      ⟨Variant.single_tells rfl (Record.Field.keeps_of_set fun _ _ _ => rfl),
        List.forall_mem_nil _⟩⟩⟩⟩

theorem unordered_lineRecord : lineRecord.Unordered := by
  refine Record.unordered_of_pairwise ?_
  simp only [lineRecord, List.pairwise_cons, List.forall_mem_cons, List.not_mem_nil, false_imp_iff,
    implies_true, List.Pairwise.nil, and_true]
  and_intros <;> exact Record.Field.commutes_of_set fun _ _ x => by cases x <;> rfl

theorem unordered : tagged.Unordered :=
  List.forall_mem_cons.mpr ⟨unordered_lineRecord, List.forall_mem_cons.mpr
    ⟨Record.unordered_nil _ _, List.forall_mem_cons.mpr ⟨Record.unordered_nil _ _,
      List.forall_mem_cons.mpr ⟨Record.unordered_single _ _ _, List.forall_mem_nil _⟩⟩⟩⟩

theorem regular : tagged.Regular kind toJson :=
  tells.regular unordered (fun x => by cases x <;> exact ⟨_, rfl⟩)
    (fun x => x.writable_toJson.exact) restores

end Expectation

/-- Selections and actions, entries and expectations are read and written in step. In all five
formats the tag is the kind, and neither the order of members nor a member without meaning counts. -/
theorem sibling_formats_in_step :
    (∀ source, (Selection.format.decode source).toOption =
        (Action.format.decode source).toOption.map Action.selection) ∧
      (∀ source e, Entry.format.decode source = .ok e →
        Expectation.format.decode source = .ok (.ofEntry e)) ∧
      (∀ e, Expectation.format.encode (.ofEntry e) = Entry.format.encode e) ∧
      (∀ x, ∃ e, Entry.format.decode (Expectation.format.encode x) = .ok e ∧
        Expectation.ofEntry e = x) ∧
      Selection.tagged.Regular Selection.kind Selection.toJson ∧
      Action.tagged.Regular Action.kind Action.toJson ∧
      Event.tagged.Regular Event.kind Event.toJson ∧
      Entry.tagged.Regular Entry.kind Entry.toJson ∧
      Expectation.tagged.Regular Expectation.kind Expectation.toJson := by
  have hencode (e : Entry) : Expectation.format.encode (.ofEntry e) = Entry.format.encode e :=
    congrArg Value.compact (Expectation.toJson_ofEntry e)
  refine ⟨?_, ?_, hencode, fun x => ?_, Selection.regular, Action.regular, Event.regular,
    Entry.regular, Expectation.regular⟩
  · exact Tagged.toOption_decode_map Action.selection_relaxes Action.ofSelection_relaxes
      Action.selection_ofSelection
  · exact fun _ _ => Tagged.decode_relaxes Expectation.ofEntry_relaxes
  · obtain ⟨e, rfl⟩ := x.exists_ofEntry
    rw [hencode]
    exact ⟨e, e.restores, rfl⟩

/-- A message whose tag comes last, after a member that means nothing. -/
theorem message_read_in_any_order :
    let members : List (String × Value) :=
      [("text", .text "Hi"), ("note", .list [.null]), ("kind", .text "message")]
    let o : ObjectText := ⟨['\n'], members.map MemberText.compact, [' ']⟩
    o.text = "\n\x7b\"text\":\"Hi\",\"note\":[null],\"kind\":\"message\"\x7d " ∧ o.Sound ∧
      Entry.format.decode o.text = .ok (.message "Hi") ∧
      Expectation.format.decode o.text = .ok (.message "Hi") ∧
      decode Tagged.tagReader.decoder o.text = .ok "message" := by
  intro members o
  obtain ⟨-, hexpected, -, -, -, -, -, hregular, -⟩ := sibling_formats_in_step
  let plain : ObjectText :=
    ⟨[], [("kind", .text "message"), ("text", .text "Hi")].map MemberText.compact, []⟩
  have hnote : (Value.list [.null]).Writable 126 := by
    have hnull : Value.null.Writable 0 := Value.writable_plain rfl trivial
    exact (Value.writable_list (List.forall_mem_singleton.mpr hnull)).mono (by decide)
  have htext (s : String) : (Value.text s).Throughout Value.Exact := (Value.writable_text 0 s).exact
  have hplain : plain.Sound := by
    refine ⟨List.forall_mem_nil _, List.forall_mem_map.mpr fun m hm => ?_, List.forall_mem_nil _⟩
    refine MemberText.sound_compact ?_
    simp only [List.mem_cons, List.not_mem_nil, or_false] at hm
    rcases hm with rfl | rfl <;> exact htext _
  have hread : decode Entry.tagged.decoder plain.text = .ok (.message "Hi") := by
    have hwritten : plain.text = (Entry.message "Hi").toJson.compact := by decide +kernel
    rw [hwritten]
    exact Entry.restores (.message "Hi")
  have hforeign : (MemberText.compact ("note", .list [.null])).Foreign Entry.tagged
      (Entry.message "Hi").kind := MemberText.foreign_compact (by decide +kernel) hnote
  have horder : o.members.Perm (plain.members ++ [MemberText.compact ("note", .list [.null])]) :=
    List.perm_append_singleton (MemberText.compact ("kind", .text "message"))
      [.compact ("text", .text "Hi"), .compact ("note", .list [.null])]
  have hmoved : decode Entry.tagged.decoder o.text = .ok (.message "Hi") :=
    hregular.rewritten hplain (by simp [o, Spaces, isSpace]) (by simp [o, Spaces, isSpace]) horder
      (List.forall_mem_singleton.mpr hforeign) hread
  have hsound : o.Sound := by
    refine ⟨by simp [o, Spaces, isSpace], fun m hm => ?_, by simp [o, Spaces, isSpace]⟩
    rcases List.mem_append.mp (horder.mem_iff.mp hm) with hm | hm
    · exact hplain.members m hm
    · exact List.mem_singleton.mp hm ▸ hforeign.sound
  exact ⟨by decide +kernel, hsound, hmoved, hexpected _ _ hmoved,
    hregular.named hsound.isObject hmoved⟩

end Dialogue
