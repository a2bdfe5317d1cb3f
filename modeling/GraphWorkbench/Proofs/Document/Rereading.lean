import GraphWorkbench.Document.Mutation
import GraphWorkbench.Proofs.Document.Reload
import GraphWorkbench.Proofs.Schema.Writing
/-!
Mutations are read back from what is written of them, under names of either kind and at any depth of
batches. The reader finds the form by its tag and then reads field by field; the steps of a batch it
reads as it would read any list, so a batch is read back as soon as its steps are.
-/
namespace GraphWorkbench

open Schema

variable {naming : Naming}

/-! Fields and elements. -/

theorem Schema.listOf_ofStrings (ss : List String) : listOf string (.ofStrings ss) = .ok ss :=
  listOf_map_eq_ok fun _ _ => rfl

theorem Schema.nullable_ofString? (s : Option String) :
    nullable string (.ofString? s) = .ok s := by
  cases s <;> rfl

theorem Position.nullable_decode (position : Option Position) :
    nullable decode ((position.map toJson).getD .null) = .ok position := by
  cases position <;> rfl

namespace Mutation

variable {m m' : Mutation} {steps : List Mutation} {fields : Fields}

mutual
/-- All numbers in a mutation are finite. -/
def Finite : Mutation → Prop
  | .addNode node => node.Finite
  | .updateNode _ properties _ position =>
    (Json.ofTable properties).Finite ∧ ∀ q ∈ position, q.Finite
  | .addEdge edge => edge.Finite
  | .updateEdge _ properties _ => (Json.ofTable properties).Finite
  | .removeNode _ | .removeEdge _ => True
  | .batch _ steps => FiniteAll steps
def FiniteAll : List Mutation → Prop
  | [] => True
  | m :: rest => m.Finite ∧ FiniteAll rest
end

instance : DecidablePred Position.Finite := fun q =>
  inferInstanceAs (Decidable (q.x.isFinite = true ∧ q.y.isFinite = true))

mutual
instance decidableFinite : DecidablePred Finite
  | .addNode node => inferInstanceAs (Decidable node.Finite)
  | .updateNode _ properties _ position =>
    inferInstanceAs (Decidable ((Json.ofTable properties).Finite ∧ ∀ q ∈ position, q.Finite))
  | .addEdge edge => inferInstanceAs (Decidable edge.Finite)
  | .updateEdge _ properties _ => inferInstanceAs (Decidable (Json.ofTable properties).Finite)
  | .removeNode _ | .removeEdge _ => inferInstanceAs (Decidable True)
  | .batch _ steps => decidableFiniteAll steps
instance decidableFiniteAll : DecidablePred FiniteAll
  | [] => inferInstanceAs (Decidable True)
  | m :: rest => @instDecidableAnd _ _ (decidableFinite m) (decidableFiniteAll rest)
end

theorem finiteAll_iff : FiniteAll steps ↔ ∀ m ∈ steps, m.Finite := by
  induction steps with
  | nil => simp [FiniteAll]
  | cons m rest ih => simp [FiniteAll, ih]

/-! What is written. -/

theorem writeAll_eq_map (naming : Naming) (steps : List Mutation) :
    writeAll naming steps = steps.map (write naming) := by
  induction steps with
  | nil => rfl
  | cons m rest ih => rw [writeAll, ih, List.map_cons]

/-! The reader, form by form. -/

theorem decodeFrom_eq_itemsFrom (i : Nat) (items : List Json) :
    decodeFrom i items = itemsFrom decode i items := by
  induction items generalizing i with
  | nil => rw [decodeFrom, itemsFrom]
  | cons v rest ih => rw [decodeFrom, itemsFrom, ih]

theorem decode_of_single {form : String}
    (tagged : Entries.get? tagField fields = some (.str form)) (single : form ≠ "batch")
    (read : decodeSingle? form fields = some (.ok m)) : decode (.obj fields) = .ok m := by
  rw [decode, tagged]
  simp only [read, Decoded.under_ok]

/-- A batch is read like any record, and its steps as a list of mutations. -/
theorem decode_of_batch (tagged : Entries.get? tagField fields = some (.str "batch")) :
    decode (.obj fields) = Decoded.under (.key "batch") (
      (Decoded.build batch)
        |>.ap (Schema.optional fields "label" "label" none (nullable string))
        |>.ap (Schema.optional fields "mutations" "mutations" [] (listOf decode))) := by
  rw [decode, tagged]
  simp only
  congr 2
  -- the reader takes hold of the steps by hand, to see that they are smaller than the batch
  unfold Schema.optional lookup
  rw [Option.or_self]
  split
  next hnone => rw [hnone]
  next items hitems =>
    rw [hitems, decodeFrom_eq_itemsFrom]
    rfl
  next v hother hv =>
    rw [hv]
    cases v with
    | arr items => exact absurd rfl (hother items)
    | _ => rfl

/-! Reading back. -/

theorem decode_write_single (single : m.isBatch = false) (finite : m.Finite) :
    decode (m.write naming) = .ok m := by
  -- which of its two names a field is found by depends on the naming, what is found does not
  cases m with
  | addNode node =>
    have hnode : Node.decode (node.write naming) = .ok node := Node.decode_write finite naming
    refine decode_of_single rfl (by decide) ?_
    simp [decodeSingle?, required, lookup, Entries.get?, tagField, hnode]
  | updateNode id properties removed position =>
    have hproperties := anyTable_portable finite.1
    have hremoved := listOf_ofStrings removed
    have hposition := Position.nullable_decode position
    refine decode_of_single rfl (by decide) ?_
    cases naming <;>
      simp [decodeSingle?, required, Schema.optional, lookup, Entries.get?, tagField, Naming.pick,
        string, hproperties, hremoved, hposition]
  | removeNode id =>
    refine decode_of_single rfl (by decide) ?_
    cases naming <;>
      simp [decodeSingle?, required, lookup, Entries.get?, tagField, Naming.pick, string]
  | addEdge edge =>
    have hedge : Edge.decode (edge.write naming) = .ok edge := Edge.decode_write finite naming
    refine decode_of_single rfl (by decide) ?_
    simp [decodeSingle?, required, lookup, Entries.get?, tagField, hedge]
  | updateEdge id properties removed =>
    have hproperties := anyTable_portable finite
    have hremoved := listOf_ofStrings removed
    refine decode_of_single rfl (by decide) ?_
    cases naming <;>
      simp [decodeSingle?, required, Schema.optional, lookup, Entries.get?, tagField, Naming.pick,
        string, hproperties, hremoved]
  | removeEdge id =>
    refine decode_of_single rfl (by decide) ?_
    cases naming <;>
      simp [decodeSingle?, required, lookup, Entries.get?, tagField, Naming.pick, string]
  | batch label steps => simp [isBatch] at single

theorem decode_write (finite : m.Finite) : decode (m.write naming) = .ok m := by
  -- by the depth of the batches: the steps of a batch are read back before the batch is
  induction m using induct with
  | single m hm => exact decode_write_single hm finite
  | batch label steps ih =>
    have hfinite : ∀ m ∈ steps, m.Finite := finiteAll_iff.mp finite
    have hsteps : listOf decode (.arr (writeAll naming steps)) = .ok steps := by
      rw [writeAll_eq_map]
      exact listOf_map_eq_ok fun m hm => ih m hm (hfinite m hm)
    have hlabel := nullable_ofString? label
    rw [write, decode_of_batch rfl]
    simp [Schema.optional, lookup, Entries.get?, tagField, hlabel, hsteps]

/-- What is written of a mutation, under whichever names, is written of no other. -/
theorem eq_of_write_eq {naming' : Naming} (finite : m.Finite) (finite' : m'.Finite)
    (same : m.write naming = m'.write naming') : m = m' := by
  have hread : decode (m.write naming) = .ok m' := by
    rw [same]
    exact decode_write finite'
  rw [decode_write finite] at hread
  exact Except.ok.inj hread

/-- A mutation with finite numbers is read back as it is from its exchange form, which is what is
written of it under the names of that format, and from what is written of it under plain names; and
it goes by the same label before and after. -/
theorem decode_written (finite : m.Finite) :
    m.write .exchange = m.toJson ∧
      ∀ naming, decode (m.write naming) = .ok m ∧
        (decode (m.write naming)).map label = .ok m.label := by
  refine ⟨rfl, ?_⟩
  intro naming
  have hread : decode (m.write naming) = .ok m := decode_write finite
  refine ⟨hread, ?_⟩
  rw [hread]
  rfl

/-- Batches in batches, with every form, empty and left-out labels, and a position that is null. -/
theorem decode_written_nested :
    let properties : Table Json :=
      .ofEntries [("typeId", .null), ("size", .arr [.int 1, .float 1, .bool true])]
    let m : Mutation := .batch (some "") [
      .addNode { id := "a", typeId := "host", properties, position := { x := 1, y := 2 } },
      .batch none [
        .updateNode "a" properties ["size"] none,
        .batch (some "Moves") [.updateNode "a" .empty [] (some { x := 3 }), .batch none []],
        .removeNode "a"],
      .batch none [
        .addEdge { id := "e", typeId := "link", source := "a", target := "a", properties },
        .updateEdge "e" properties ["size", "typeId"], .removeEdge "e"]]
    m.Finite ∧ m.write .exchange = m.toJson ∧ decode (m.write .exchange) = .ok m ∧
      decode (m.write .plain) = .ok m ∧
      (decode (m.write .plain)).map label = .ok "Batch of 3 change(s)" := by
  intro properties m
  have hfinite : m.Finite := by decide +kernel
  obtain ⟨hexchange, hread⟩ := decode_written hfinite
  have hlabel : m.label = "Batch of 3 change(s)" := by decide
  exact ⟨hfinite, hexchange, (hread .exchange).1, (hread .plain).1, hlabel ▸ (hread .plain).2⟩

end Mutation

end GraphWorkbench
