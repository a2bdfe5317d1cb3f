import GraphWorkbench.Proofs.Stix.Validation
/-!
The ids and references of valid objects. What an object must be to be taken for a valid one is said
field by field, so that a reference may be exchanged for another text while all else stays. A
reference that stands alone must have its form to the end; one that stands in a list may have a line
break behind it.
-/
namespace GraphWorkbench

open Outcome

/-- Under a name that stands once is what stands there. -/
theorem Entries.get?_of_mem {α : Type} {key : String} {value : α} {entries : List (String × α)}
    (distinct : (keys entries).Nodup) (h : (key, value) ∈ entries) :
    get? key entries = some value := by
  let t : Table α := ⟨entries, distinct⟩
  exact t.get?_of_mem h

namespace Text

variable {cs : List Char} {form : List Char → Bool}

/-- A small letter, then small letters, digits or hyphens, then two hyphens, and then letters, digits
or hyphens, at least one. -/
def IsReference (cs : List Char) : Prop :=
  ∃ first kind tail, cs = first :: (kind ++ '-' :: '-' :: tail) ∧ ('a' ≤ first ∧ first ≤ 'z') ∧
    (∀ c ∈ kind, ('a' ≤ c ∧ c ≤ 'z') ∨ ('0' ≤ c ∧ c ≤ '9') ∨ c = '-') ∧
    tail ≠ [] ∧ ∀ c ∈ tail, c.isAlphanum = true ∨ c = '-'

/-- A reference, or one with a line break behind it. -/
def IsReferenceLine (cs : List Char) : Prop :=
  IsReference cs ∨ ∃ line, cs = line ++ ['\n'] ∧ IsReference line

theorem isReferenceTail_iff :
    isReferenceTail cs = true ↔ cs ≠ [] ∧ ∀ c ∈ cs, c.isAlphanum = true ∨ c = '-' := by
  simp [isReferenceTail]

theorem isReferenceRest_iff : isReferenceRest cs = true ↔
    ∃ kind tail, cs = kind ++ '-' :: '-' :: tail ∧
      (∀ c ∈ kind, ('a' ≤ c ∧ c ≤ 'z') ∨ ('0' ≤ c ∧ c ≤ '9') ∨ c = '-') ∧
      isReferenceTail tail = true := by
  induction cs with
  | nil => simp [isReferenceRest]
  | cons c rest ih =>
    rw [isReferenceRest.eq_def]
    simp only [Bool.or_eq_true, Bool.and_eq_true, beq_iff_eq]
    constructor
    · rintro (⟨rfl, hmark⟩ | ⟨hc, hrest⟩)
      · -- the first hyphen of the mark
        split at hmark
        next tail => exact ⟨[], tail, rfl, List.forall_mem_nil _, hmark⟩
        next => exact absurd hmark Bool.false_ne_true
      · obtain ⟨kind, tail, rfl, hkind, htail⟩ := ih.mp hrest
        have hfirst : ('a' ≤ c ∧ c ≤ 'z') ∨ ('0' ≤ c ∧ c ≤ '9') ∨ c = '-' := by
          simpa [isLowerOrDigit, or_assoc] using hc
        exact ⟨c :: kind, tail, rfl, List.forall_mem_cons.mpr ⟨hfirst, hkind⟩, htail⟩
    · rintro ⟨kind, tail, hcs, hkind, htail⟩
      cases kind with
      | nil =>
        obtain ⟨rfl, rfl⟩ := List.cons.inj hcs
        exact .inl ⟨rfl, htail⟩
      | cons first kind =>
        obtain ⟨rfl, rfl⟩ := List.cons.inj hcs
        obtain ⟨hfirst, hkind⟩ := List.forall_mem_cons.mp hkind
        refine .inr ⟨?_, ih.mpr ⟨kind, tail, rfl, hkind, htail⟩⟩
        simpa [isLowerOrDigit, or_assoc] using hfirst

theorem isReferenceForm_iff : isReferenceForm cs = true ↔ IsReference cs := by
  cases cs with
  | nil => simp [isReferenceForm, IsReference]
  | cons c rest =>
    simp only [isReferenceForm, Bool.and_eq_true, decide_eq_true_eq, isReferenceRest_iff,
      isReferenceTail_iff, IsReference, List.cons.injEq]
    constructor
    · rintro ⟨hc, kind, tail, rfl, hkind, htail⟩
      exact ⟨c, kind, tail, ⟨rfl, rfl⟩, hc, hkind, htail⟩
    · rintro ⟨first, kind, tail, ⟨rfl, rfl⟩, hc, hkind, htail⟩
      exact ⟨hc, kind, tail, rfl, hkind, htail⟩

/-- A form that is looked for before the end of a line is found at the end of the text, or before one
line break. -/
theorem fitsLine_iff : fitsLine form cs = true ↔
    form cs = true ∨ ∃ line, cs = line ++ ['\n'] ∧ form line = true := by
  rw [fitsLine, Bool.or_eq_true]
  -- whether there is a line break shows at the last character
  rcases List.eq_nil_or_concat cs with rfl | ⟨line, c, rfl⟩
  · simp [beforeLineEnd]
  · by_cases hbreak : c = '\n'
    · simp [beforeLineEnd, hbreak]
    · simp [beforeLineEnd, hbreak]

theorem fitsLine_isReferenceForm_iff :
    fitsLine isReferenceForm cs = true ↔ IsReferenceLine cs := by
  simp only [fitsLine_iff, isReferenceForm_iff, IsReferenceLine]

end Text

namespace Stix

open Schema (Fields)

variable {k : Kind} {record record' fs known : Fields} {fields : List Field} {f : Field} {i : Nat}
  {name : String} {v : ValidObject}

section Reading

theorem readKnown_eq_ok_iff : readKnown record fields = .ok known ↔
    List.Forall₂ (fun f e => f.decode record = .ok e) fields known := by
  induction fields generalizing known with
  | nil =>
    rw [readKnown, List.forall₂_nil_left_iff, Except.ok.injEq]
    exact eq_comm
  | cons f rest ih =>
    simp only [readKnown, Schema.Decoded.ap_eq_ok_iff, ih]
    constructor
    · rintro ⟨_, others, ⟨make, e, hmake, he, rfl⟩, hrest, rfl⟩
      obtain rfl : List.cons = make := Except.ok.inj hmake
      exact .cons he hrest
    · intro h
      cases h with
      | cons he hrest => exact ⟨_, _, ⟨_, _, rfl, he, rfl⟩, hrest, rfl⟩

theorem exists_forall₂_iff {α β : Type} {R : α → β → Prop} {as : List α} :
    (∃ bs, List.Forall₂ R as bs) ↔ ∀ a ∈ as, ∃ b, R a b := by
  induction as with
  | nil => exact ⟨fun _ => nofun, fun _ => ⟨[], .nil⟩⟩
  | cons a rest ih =>
    rw [List.forall_mem_cons, ← ih]
    constructor
    · rintro ⟨bs, h⟩
      cases h with
      | cons hb hrest => exact ⟨⟨_, hb⟩, _, hrest⟩
    · rintro ⟨⟨b, hb⟩, bs, hrest⟩
      exact ⟨b :: bs, .cons hb hrest⟩

/-- What a field gives stands under its name. -/
theorem name_of_decode {e : String × Json} (h : f.decode record = .ok e) : e.1 = f.name := by
  obtain ⟨_, value, hmake, _, rfl⟩ := (Schema.Decoded.ap_eq_ok_iff _ _ _).mp h
  rw [← Except.ok.inj hmake]

/-- A field is read from what stands under its name and from nothing else. -/
theorem decode_congr (h : Entries.get? f.name record' = Entries.get? f.name record) :
    f.decode record' = f.decode record := by
  unfold Field.decode Schema.required Schema.optional Schema.lookup
  rw [h]

theorem nodup_names (k : Kind) : ((commonFields k ++ ownFields k).map Field.name).Nodup := by
  cases k <;> decide

theorem readObject_eq_ok_iff : readObject k record = .ok fs ↔
    ∃ known, readKnown record (commonFields k ++ ownFields k) = .ok known ∧
      isBackdated record = false ∧ Entries.merge record known = fs := by
  have hread : readFields (commonFields k ++ ownFields k) record =
      (Schema.Decoded.build fun known => Entries.merge record known).ap
        (readKnown record (commonFields k ++ ownFields k)) := rfl
  unfold readObject
  rw [hread]
  cases readKnown record (commonFields k ++ ownFields k) with
  | error issues => simp [Schema.Decoded.ap]
  | ok known => cases isBackdated record <;> simp [Schema.fault]

theorem exists_readObject_iff : (∃ fs, readObject k record = .ok fs) ↔
    (∀ f ∈ commonFields k ++ ownFields k, ∃ e, f.decode record = .ok e) ∧
      isBackdated record = false := by
  simp only [readObject_eq_ok_iff, ← exists_forall₂_iff, ← readKnown_eq_ok_iff]
  constructor
  · rintro ⟨_, known, hknown, hdates, _⟩
    exact ⟨⟨known, hknown⟩, hdates⟩
  · rintro ⟨⟨known, hknown⟩, hdates⟩
    exact ⟨_, known, hknown, hdates, rfl⟩

theorem keys_of_readKnown (h : readKnown record fields = .ok known) :
    Entries.keys known = fields.map Field.name := by
  induction readKnown_eq_ok_iff.mp h with
  | nil => rfl
  | cons he _ ih => exact congrArg₂ List.cons (name_of_decode he) (ih (readKnown_eq_ok_iff.mpr ‹_›))

theorem mem_of_readKnown (h : readKnown record fields = .ok known) (hf : f ∈ fields) :
    ∃ value, f.decode record = .ok (f.name, value) ∧ (f.name, value) ∈ known := by
  obtain ⟨e, he, hmem⟩ : ∃ e, f.decode record = .ok e ∧ e ∈ known := by
    have hall := readKnown_eq_ok_iff.mp h
    clear h
    induction hall with
    | nil => exact absurd hf List.not_mem_nil
    | cons he _ ih =>
      rcases List.mem_cons.mp hf with rfl | hrest
      · exact ⟨_, he, List.mem_cons_self⟩
      · obtain ⟨e, hothers, hmem⟩ := ih hrest
        exact ⟨e, hothers, List.mem_cons_of_mem _ hmem⟩
  obtain ⟨key, value⟩ := e
  obtain rfl : key = f.name := name_of_decode he
  exact ⟨value, he, hmem⟩

/-- In the normal form of an object, what a field gave stands under its name. -/
theorem get?_of_readObject (h : readObject k record = .ok fs)
    (hf : f ∈ commonFields k ++ ownFields k) :
    ∃ value, f.decode record = .ok (f.name, value) ∧ Entries.get? f.name fs = some value := by
  obtain ⟨known, hknown, _, rfl⟩ := readObject_eq_ok_iff.mp h
  have hdistinct : (Entries.keys known).Nodup := by
    rw [keys_of_readKnown hknown]
    exact nodup_names k
  obtain ⟨value, hvalue, hmem⟩ := mem_of_readKnown hknown hf
  refine ⟨value, hvalue, ?_⟩
  rw [Entries.get?_merge hdistinct, Entries.get?_of_mem hdistinct hmem, Option.some_or]

end Reading

section Lists

variable {α : Type} {write : α → Json} {read : Json → Schema.Decoded α} {value : Json}

theorem decode_must_iff : (Field.must name write read).decode record = .ok (name, value) ↔
    ∃ given a, Entries.get? name record = some given ∧ read given = .ok a ∧ write a = value := by
  have hdecode : (Field.must name write read).decode record =
      (Schema.Decoded.build fun v => (name, v)).ap
        (Schema.required record name name (Field.normal write read)) := rfl
  rw [hdecode, Schema.Decoded.ap_eq_ok_iff]
  unfold Schema.required Schema.lookup Field.normal
  cases Entries.get? name record with
  | none => simp [Schema.fault, Schema.Decoded.under]
  | some given => simp [Schema.under_eq_ok_iff, Schema.Decoded.ap_eq_ok_iff]

theorem decode_many_iff : (Field.many name write read).decode record = .ok (name, value) ↔
    ∃ as, Schema.listOf read ((Entries.get? name record).getD (.arr [])) = .ok as ∧
      .arr (as.map write) = value := by
  have hdecode : (Field.many name write read).decode record =
      (Schema.Decoded.build fun v => (name, v)).ap (Schema.optional record name name (.arr [])
        (Field.normal (fun as : List α => .arr (as.map write)) (Schema.listOf read))) := rfl
  rw [hdecode, Schema.Decoded.ap_eq_ok_iff]
  unfold Schema.optional Schema.lookup Field.normal
  cases Entries.get? name record with
  | none => simp [Schema.listOf, Schema.itemsFrom]
  | some given => simp [Schema.under_eq_ok_iff, Schema.Decoded.ap_eq_ok_iff]

theorem listOf_string_iff {v : Json} {ss : List String} :
    Schema.listOf Schema.string v = .ok ss ↔ v = .ofStrings ss := by
  constructor
  · intro h
    cases v with
    | arr items => exact congrArg Json.arr (Schema.eq_map_str_of_forall₂ (Schema.forall₂_of_listOf h))
    | _ => exact absurd h (Schema.fault_ne_ok _ _)
  · rintro rfl
    refine Schema.itemsFrom_eq_ok_iff.mpr (List.forall₂_map_left_iff.mpr ?_)
    exact List.forall₂_same.mpr fun _ _ => rfl

theorem someOf_string_iff {v : Json} {ss : List String} :
    Schema.someOf Schema.string v = .ok ss ↔ v = .ofStrings ss ∧ ss ≠ [] := by
  rw [← listOf_string_iff]
  unfold Schema.someOf Schema.checked
  cases Schema.listOf Schema.string v with
  | error issues => simp
  | ok items =>
    cases items with
    | nil =>
      simp only [List.isEmpty_nil, if_true, Schema.fault_ne_ok, Except.ok.injEq, false_iff, not_and,
        not_not]
      exact Eq.symm
    | cons item rest =>
      simp only [List.isEmpty_cons, Bool.false_eq_true, if_false, Except.ok.injEq, iff_self_and]
      rintro rfl
      exact List.cons_ne_nil _ _

theorem textsAt_of_get? {ss : List String} (h : Entries.get? name record = some (.ofStrings ss)) :
    textsAt record name = ss := by
  unfold textsAt Json.ofStrings at *
  rw [h]
  simp [List.filterMap_map, Function.comp_def, Json.str?]

/-- The texts of a list that may be left out. -/
theorem textsAt_of_getD {ss : List String}
    (h : (Entries.get? name record).getD (.arr []) = .ofStrings ss) : textsAt record name = ss := by
  cases hget : Entries.get? name record with
  | some given =>
    rw [hget] at h
    exact textsAt_of_get? (hget.trans (congrArg some h))
  | none =>
    rw [hget] at h
    unfold textsAt
    rw [hget]
    exact (List.map_eq_nil_iff.mp (Json.arr.inj h).symm).symm

/-- The list of references of an object holds texts only, and they are the same in its normal form.
-/
theorem textsAt_of_readObject (hname : referenceList? k = some name)
    (h : readObject k record = .ok fs) : textsAt fs name = textsAt record name ∧
      (Entries.get? name record).getD (.arr []) = .ofStrings (textsAt record name) := by
  cases k with
  | grouping =>
    obtain rfl := Option.some.inj hname
    let refs : Field := .must "object_refs" .ofStrings (Schema.someOf Schema.string)
    have hmem : refs ∈ commonFields .grouping ++ ownFields .grouping := by simp [ownFields, refs]
    obtain ⟨value, hdecode, hvalue⟩ := get?_of_readObject h hmem
    obtain ⟨given, ss, hgiven, hread, rfl⟩ := decode_must_iff.mp hdecode
    obtain ⟨rfl, _⟩ := someOf_string_iff.mp hread
    have hnormal : textsAt fs "object_refs" = ss := textsAt_of_get? hvalue
    rw [hnormal, textsAt_of_get? hgiven, hgiven]
    exact ⟨rfl, rfl⟩
  | sighting =>
    obtain rfl := Option.some.inj hname
    let refs : Field := .many "where_sighted_refs" .str Schema.string
    have hmem : refs ∈ commonFields .sighting ++ ownFields .sighting := by simp [ownFields, refs]
    obtain ⟨value, hdecode, hvalue⟩ := get?_of_readObject h hmem
    obtain ⟨ss, hread, rfl⟩ := decode_many_iff.mp hdecode
    have hgiven := listOf_string_iff.mp hread
    have hnormal : textsAt fs "where_sighted_refs" = ss := textsAt_of_get? hvalue
    rw [hnormal, textsAt_of_getD hgiven]
    exact ⟨rfl, hgiven⟩
  | _ => cases hname

end Lists

section Acceptance

/-- What an object must be to be taken for a valid one of a kind. -/
structure Admissible (k : Kind) (record : Fields) : Prop where
  start : ∀ id, idOf? record = some id → startsOtherwise id k.word = false
  fields : ∀ f ∈ commonFields k ++ ownFields k, ∃ e, f.decode record = .ok e
  dates : isBackdated record = false
  references : ∀ name, referenceList? k = some name →
    ∀ ref ∈ textsAt record name, Text.IsReferenceLine ref.toList

theorem malformedReferences_eq_nil_iff (h : readObject k record = .ok fs) :
    malformedReferences k fs = [] ↔ ∀ name, referenceList? k = some name →
      ∀ ref ∈ textsAt record name, Text.IsReferenceLine ref.toList := by
  unfold malformedReferences
  cases hname : referenceList? k with
  | none => simp
  | some name =>
    simp only [(textsAt_of_readObject hname h).1, List.filter_eq_nil_iff, Bool.not_eq_true',
      Bool.not_eq_false, Text.fitsLine_isReferenceForm_iff, Option.some.injEq, forall_eq']

theorem checkObject_eq_ok_iff : checkObject i k record = .ok v ↔
    (∀ id, idOf? record = some id → startsOtherwise id k.word = false) ∧
      ∃ fs, readObject k record = .ok fs ∧ malformedReferences k fs = [] ∧
        ⟨i, k, (idOf? record).getD "", fs, record⟩ = v := by
  unfold checkObject
  extract_lets name read
  have hchecked : read () = .ok v ↔ ∃ fs, readObject k record = .ok fs ∧
      malformedReferences k fs = [] ∧ ⟨i, k, (idOf? record).getD "", fs, record⟩ = v := by
    simp only [read]
    cases readObject k record with
    | error issues => simp [throw, throwThe, MonadExceptOf.throw]
    | ok fs =>
      by_cases hbad : malformedReferences k fs = []
      · simp [hbad, pure, Except.pure]
      · have hsome : (!(malformedReferences k fs).isEmpty) = true := by simpa using hbad
        simp only [hsome, if_true, throw_bind]
        simp [hbad]
  rw [← hchecked]
  -- the start of the id comes first; with none, there is nothing to check of it
  clear_value read
  split
  next id hid =>
    split
    next hstart =>
      rw [throw_bind]
      simp [hid, hstart]
    next hstart => simp [hid, hstart]
  next hid => simp [hid]

theorem exists_checkObject_iff :
    (∃ v, checkObject i k record = .ok v) ↔ Admissible k record := by
  simp only [checkObject_eq_ok_iff]
  constructor
  · rintro ⟨_, hstart, fs, hread, hrefs, _⟩
    obtain ⟨hfields, hdates⟩ := exists_readObject_iff.mp ⟨fs, hread⟩
    exact ⟨hstart, hfields, hdates, (malformedReferences_eq_nil_iff hread).mp hrefs⟩
  · intro h
    obtain ⟨fs, hread⟩ := exists_readObject_iff.mpr ⟨h.fields, h.dates⟩
    exact ⟨_, h.start, fs, hread, (malformedReferences_eq_nil_iff hread).mpr h.references, rfl⟩

/-- Validation takes an object for a valid one of a kind just when it is admissible. -/
theorem exists_valid_iff (htype : Entries.get? "type" record = some (.str k.word)) :
    (∃ v, checkEntry i (.obj record) = .valid v) ↔ Admissible k record := by
  have hword : k.word.isEmpty = false := by cases k <;> decide
  rw [← exists_checkObject_iff (i := i)]
  unfold checkEntry
  simp only [htype, hword, Bool.false_eq_true, if_false, Kind.ofWord?_word]
  cases checkObject i k record with
  | ok v => simp
  | error cause => simp

theorem admissible_of_valid {entry : Json} (h : checkEntry i entry = .valid v) :
    entry = .obj v.raw ∧ Admissible v.kind v.raw := by
  obtain ⟨rfl, _, htype, _⟩ := (concerns_checkEntry i entry).valid v h
  exact ⟨rfl, (exists_valid_iff htype).mp ⟨v, h⟩⟩

end Acceptance

section Exchange

/-- The fields of a kind that hold one reference to another object. -/
def endpointNames : Kind → List String
  | .relationship => ["source_ref", "target_ref"]
  | .sighting => ["sighting_of_ref"]
  | _ => []

variable {value : Json} {r : String} {refs : List String}

theorem field_eq_of_name {g : Field} (hf : f ∈ commonFields k ++ ownFields k)
    (hg : g ∈ commonFields k ++ ownFields k) (same : f.name = g.name) : f = g :=
  List.inj_on_of_nodup_map (nodup_names k) hf hg same

theorem name_ne_of_ownFields {g : Field} (hf : f ∈ ownFields k) (hg : g ∈ commonFields k) :
    g.name ≠ f.name := by
  have hdistinct := nodup_names k
  rw [List.map_append, List.nodup_append] at hdistinct
  exact hdistinct.2.2 _ (List.mem_map_of_mem hg) _ (List.mem_map_of_mem hf)

/-- A field that not all kinds have may hold another value, so long as it can be read. -/
theorem admissible_put_iff (h : Admissible k record) (hf : f ∈ ownFields k) :
    Admissible k (Entries.put f.name value record) ↔
      (∃ e, f.decode (Entries.put f.name value record) = .ok e) ∧
        (referenceList? k = some f.name →
          ∀ ref ∈ textsAt (Entries.put f.name value record) f.name,
            Text.IsReferenceLine ref.toList) := by
  constructor
  · intro h'
    exact ⟨h'.fields f (List.mem_append_right _ hf), h'.references f.name⟩
  · rintro ⟨hread, hrefs⟩
    -- the fields of all kinds stay as they are
    have hother : ∀ {name}, name ≠ f.name →
        Entries.get? name (Entries.put f.name value record) = Entries.get? name record := by
      intro name hne
      rw [Entries.get?_put, if_neg hne]
    have hcommon : ∀ {name}, name ∈ (commonFields k).map Field.name →
        Entries.get? name (Entries.put f.name value record) = Entries.get? name record := by
      intro name hname
      obtain ⟨g, hg, rfl⟩ := List.mem_map.mp hname
      exact hother (name_ne_of_ownFields hf hg)
    refine ⟨?start, ?fields, ?dates, ?references⟩
    case start =>
      unfold idOf?
      rw [hcommon (by simp [commonFields, Field.must])]
      exact h.start
    case fields =>
      intro g hg
      by_cases hname : g.name = f.name
      · rwa [field_eq_of_name hg (List.mem_append_right _ hf) hname]
      · rw [decode_congr (hother hname)]
        exact h.fields g hg
    case dates =>
      unfold isBackdated instantAt?
      rw [hcommon (by simp [commonFields, Field.must]), hcommon (by simp [commonFields, Field.must])]
      exact h.dates
    case references =>
      intro name hlist
      by_cases hname : name = f.name
      · subst hname
        exact hrefs hlist
      · unfold textsAt
        rw [hother hname]
        exact h.references name hlist

theorem valid_put_iff (h : checkEntry i (.obj record) = .valid v) (hf : f ∈ ownFields v.kind) :
    (∃ w, checkEntry i (.obj (Entries.put f.name value record)) = .valid w) ↔
      (∃ e, f.decode (Entries.put f.name value record) = .ok e) ∧
        (referenceList? v.kind = some f.name →
          ∀ ref ∈ textsAt (Entries.put f.name value record) f.name,
            Text.IsReferenceLine ref.toList) := by
  obtain ⟨hrecord, hadmissible⟩ := admissible_of_valid h
  obtain ⟨_, _, htype, _⟩ := (concerns_checkEntry i _).valid v h
  rw [← Json.obj.inj hrecord] at hadmissible htype
  -- the type is a field of all kinds, and so it stays
  let type : Field := .must "type" .str (Schema.oneOf [(v.kind.word, v.kind.word)])
  have hne : "type" ≠ f.name := name_ne_of_ownFields (g := type) hf List.mem_cons_self
  rw [exists_valid_iff (by rwa [Entries.get?_put, if_neg hne]), admissible_put_iff hadmissible hf]

theorem endpoint_mem_ownFields (h : name ∈ endpointNames k) :
    .must name .str reference ∈ ownFields k ∧ referenceList? k ≠ some name := by
  cases k with
  | relationship =>
    rcases List.mem_pair.mp h with rfl | rfl
    · simp [ownFields, referenceList?]
    · simp [ownFields, referenceList?]
  | sighting =>
    obtain rfl := List.mem_singleton.mp h
    simp [ownFields, referenceList?]
  | _ => exact absurd h List.not_mem_nil

theorem reference_eq_ok_iff {given : Json} :
    reference given = .ok r ↔ given = .str r ∧ Text.IsReference r.toList := by
  rw [← Text.isReferenceForm_iff]
  constructor
  · exact Schema.eq_str_of_formed
  · rintro ⟨rfl, hform⟩
    exact if_pos hform

/-- With another text in the place of a reference that stands alone, an object is valid just when that
text is a reference. -/
theorem valid_put_reference_iff (h : checkEntry i (.obj record) = .valid v)
    (hname : name ∈ endpointNames v.kind) :
    (∃ w, checkEntry i (.obj (Entries.put name (.str r) record)) = .valid w) ↔
      Text.IsReference r.toList := by
  obtain ⟨hmem, hlist⟩ := endpoint_mem_ownFields hname
  have hget : Entries.get? name (Entries.put name (.str r) record) = some (.str r) := by
    rw [Entries.get?_put, if_pos rfl]
  refine (valid_put_iff h hmem).trans ⟨?_, ?_⟩
  · rintro ⟨⟨e, he⟩, _⟩
    obtain ⟨given, a, hgiven, hread⟩ := exists_value_of_must he
    obtain rfl : .str r = given := Option.some.inj (hget.symm.trans hgiven)
    obtain ⟨htext, hform⟩ := reference_eq_ok_iff.mp hread
    rwa [Json.str.inj htext]
  · intro hform
    have hread : reference (.str r) = .ok r := reference_eq_ok_iff.mpr ⟨rfl, hform⟩
    exact ⟨⟨(name, .str r), decode_must_iff.mpr ⟨.str r, r, hget, hread, rfl⟩⟩,
      fun hrefs => absurd hrefs hlist⟩

/-- The list of references of a kind is read from any list of texts that is not empty. -/
theorem exists_listField (hname : referenceList? k = some name) : ∃ f ∈ ownFields k, f.name = name ∧
    ∀ {record refs}, refs ≠ [] → Entries.get? name record = some (.ofStrings refs) →
      ∃ e, f.decode record = .ok e := by
  cases k with
  | grouping =>
    obtain rfl := Option.some.inj hname
    refine ⟨.must "object_refs" .ofStrings (Schema.someOf Schema.string), by simp [ownFields], rfl, ?_⟩
    intro record refs hne hget
    have hread := someOf_string_iff.mpr ⟨rfl, hne⟩
    exact ⟨_, decode_must_iff.mpr ⟨_, _, hget, hread, rfl⟩⟩
  | sighting =>
    obtain rfl := Option.some.inj hname
    refine ⟨.many "where_sighted_refs" .str Schema.string, by simp [ownFields], rfl, ?_⟩
    intro record refs _ hget
    refine ⟨_, decode_many_iff.mpr ⟨refs, ?_, rfl⟩⟩
    rw [hget]
    exact listOf_string_iff.mpr rfl
  | _ => cases hname

/-- With another list of references, an object is valid just when the entries of that list are
references, of which each may have a line break behind it. -/
theorem valid_put_references_iff (h : checkEntry i (.obj record) = .valid v)
    (hname : referenceList? v.kind = some name) (hne : refs ≠ []) :
    (∃ w, checkEntry i (.obj (Entries.put name (.ofStrings refs) record)) = .valid w) ↔
      ∀ r ∈ refs, Text.IsReferenceLine r.toList := by
  obtain ⟨f, hmem, rfl, hreads⟩ := exists_listField hname
  have hget : Entries.get? f.name (Entries.put f.name (.ofStrings refs) record) =
      some (.ofStrings refs) := by
    rw [Entries.get?_put, if_pos rfl]
  rw [valid_put_iff h hmem, textsAt_of_get? hget]
  exact ⟨fun hvalid => hvalid.2 hname, fun hrefs => ⟨hreads hne hget, fun _ => hrefs⟩⟩

end Exchange

/-- Each id and each single reference of a valid object is a reference in form and nothing else, and
any text in the place of such a reference is held to that. Each entry of a list of references is one
too, but for a line break that it may have at its end, and any list in its place is held to that. -/
theorem references_of_valid {b : Bundle} (h : v ∈ (validate b).valid) :
    (∀ name ∈ "id" :: endpointNames v.kind,
      ∃ r, Entries.get? name v.raw = some (.str r) ∧ Text.IsReference r.toList) ∧
    (∀ name, referenceList? v.kind = some name →
      ∃ refs, (Entries.get? name v.raw).getD (.arr []) = .ofStrings refs ∧
        ∀ r ∈ refs, Text.IsReferenceLine r.toList) ∧
    (∀ name ∈ endpointNames v.kind, ∀ r,
      (∃ w, checkEntry v.index (.obj (Entries.put name (.str r) v.raw)) = .valid w) ↔
        Text.IsReference r.toList) ∧
    ∀ name, referenceList? v.kind = some name → ∀ refs ≠ [],
      ((∃ w, checkEntry v.index (.obj (Entries.put name (.ofStrings refs) v.raw)) = .valid w) ↔
        ∀ r ∈ refs, Text.IsReferenceLine r.toList) := by
  have hread := read_of_mem_valid h
  have hentry := (entry_of_mem_valid h).2
  have hadmissible := (admissible_of_valid hentry).2
  refine ⟨?single, ?listed, fun name hname r => valid_put_reference_iff hentry hname,
    fun name hname refs hne => valid_put_references_iff hentry hname hne⟩
  case single =>
    intro name hname
    have hmem : Field.must name .str reference ∈ commonFields v.kind ++ ownFields v.kind := by
      rcases List.mem_cons.mp hname with rfl | hendpoint
      · exact List.mem_append_left _ (by simp [commonFields])
      · exact List.mem_append_right _ (endpoint_mem_ownFields hendpoint).1
    obtain ⟨e, he⟩ := hadmissible.fields _ hmem
    obtain ⟨given, r, hgiven, hreads⟩ := exists_value_of_must he
    obtain ⟨rfl, hform⟩ := reference_eq_ok_iff.mp hreads
    exact ⟨r, hgiven, hform⟩
  case listed =>
    intro name hname
    exact ⟨_, (textsAt_of_readObject hname hread).2, hadmissible.references name hname⟩

section Example

/-- A sighting of a thing at a place. -/
def sightingAt (thing place : String) : Json :=
  dated "sighting" "sighting--a" [("sighting_of_ref", .str thing),
    ("where_sighted_refs", .arr [.str place])]

theorem sightingAt_valid :
    ∃ v ∈ (validate { objects := [sightingAt "tool--a" "identity--a"] }).valid, v.kind = .sighting := by
  decide +kernel

theorem references_of_sightingAt :
    ∃ v ∈ (validate { objects := [sightingAt "tool--a" "identity--a"] }).valid,
      (∃ r, Entries.get? "sighting_of_ref" v.raw = some (.str r) ∧ Text.IsReference r.toList) ∧
      ∃ refs, (Entries.get? "where_sighted_refs" v.raw).getD (.arr []) = .ofStrings refs ∧
        ∀ r ∈ refs, Text.IsReferenceLine r.toList := by
  obtain ⟨v, hv, hkind⟩ := sightingAt_valid
  obtain ⟨hsingle, hlisted, _⟩ := references_of_valid hv
  rw [hkind] at hsingle hlisted
  exact ⟨v, hv, hsingle "sighting_of_ref" (by decide), hlisted _ rfl⟩

/-- With a line break at its end, a place is let through, and a thing is not; neither is a reference.
-/
theorem lineBreak_in_list_only : ¬ Text.IsReference "identity--a\n".toList ∧
    (∃ v ∈ (validate { objects := [sightingAt "tool--a" "identity--a\n"] }).valid,
      "identity--a\n" ∈ textsAt v.raw "where_sighted_refs") ∧
    (validate { objects := [sightingAt "tool--a\n" "identity--a"] }).valid = [] := by
  refine ⟨?_, ?_, by decide +kernel⟩
  · rw [← Text.isReferenceForm_iff]
    decide
  · decide +kernel

end Example

end Stix

end GraphWorkbench
