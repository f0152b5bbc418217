import TableScan.Request
import TableScan.Proofs.Attempt
import TableScan.Proofs.Named

/-! Requests as mappings. Main statements: every attribute value that is passed on is a mapping from
a single tag at each level, and a request that is built from filters has a condition for each
filter, in order, with as many attribute values as the filter has operands. -/

namespace TableScan

namespace AttributeValue

inductive IsTagged : Value → Prop where
  | null : IsTagged (tagged "NULL" (.bool true))
  | bool (b : Bool) : IsTagged (tagged "BOOL" (.bool b))
  | number (digits : String) : IsTagged (tagged "N" (.text digits))
  | text (s : String) : IsTagged (tagged "S" (.text s))
  | bytes (bs : List UInt8) : IsTagged (tagged "B" (.bytes bs))
  | numberSet (members : List String) : IsTagged (tagged "NS" (.list (members.map .text)))
  | textSet (members : List String) : IsTagged (tagged "SS" (.list (members.map .text)))
  | bytesSet (members : List (List UInt8)) : IsTagged (tagged "BS" (.list (members.map .bytes)))
  | list {items : List Value} (each : ∀ v ∈ items, IsTagged v) : IsTagged (tagged "L" (.list items))
  | map {entries : List (Value × Value)} (keys : ∀ entry ∈ entries, ∃ name, entry.1 = .text name)
    (each : ∀ entry ∈ entries, IsTagged entry.2) : IsTagged (tagged "M" (.map entries))

mutual

theorem isTagged_toValue (w : AttributeValue) : IsTagged w.toValue := by
  cases w with
  | null => exact .null
  | bool b => exact .bool b
  | number digits => exact .number digits
  | text s => exact .text s
  | bytes bs => exact .bytes bs
  | numberSet members => exact .numberSet members
  | textSet members => exact .textSet members
  | bytesSet members => exact .bytesSet members
  | list items => exact .list (isTagged_of_mem_toValues items)
  | map entries =>
    exact .map (fun entry member => (isTagged_of_mem_toEntries entries entry member).1)
      fun entry member => (isTagged_of_mem_toEntries entries entry member).2

theorem isTagged_of_mem_toValues (items : List AttributeValue) :
    ∀ v ∈ toValues items, IsTagged v := by
  intro v member
  cases items with
  | nil => cases member
  | cons w items =>
    rcases List.mem_cons.1 member with rfl | later
    · exact isTagged_toValue w
    · exact isTagged_of_mem_toValues items v later

theorem isTagged_of_mem_toEntries (entries : List (String × AttributeValue)) :
    ∀ entry ∈ toEntries entries, (∃ name, entry.1 = .text name) ∧ IsTagged entry.2 := by
  intro entry member
  cases entries with
  | nil => cases member
  | cons first entries =>
    obtain ⟨name, w⟩ := first
    rcases List.mem_cons.1 member with rfl | later
    · exact ⟨⟨name, rfl⟩, isTagged_toValue w⟩
    · exact isTagged_of_mem_toEntries entries entry later

end

end AttributeValue

namespace Request

variable {s : Schema} {filters : List (String × Filter)}

theorem encodeAll_eq_mapM (a : Attribute) (element : Bool) (operands : List Value) :
    Condition.encodeAll a element operands = operands.mapM (a.encode element) := by
  induction operands with
  | nil => rfl
  | cons v operands ih => rw [Condition.encodeAll, List.mapM_cons, ih]

theorem conditionsOf_eq_mapM (s : Schema) (filters : List (String × Filter)) :
    conditionsOf s filters = filters.mapM fun entry =>
      (Condition.ofFilter s entry.1 entry.2).map (entry.1, ·) := by
  induction filters with
  | nil => rfl
  | cons entry filters ih =>
    obtain ⟨key, f⟩ := entry
    rw [conditionsOf, List.mapM_cons, ih]
    cases Condition.ofFilter s key f <;> rfl

/-- A condition is on a declared attribute, by the filter's operator and with a value for each of
its operands. -/
theorem exists_of_ofFilter {key : String} {f : Filter} {c : Condition}
    (made : Condition.ofFilter s key f = .ok c) :
    key ∈ s.names ∧ c.operator = f.operator ∧ c.operands.length = f.operands.length := by
  obtain ⟨a, found, encoding⟩ := Attempt.bind_eq_ok_iff.1 made
  obtain ⟨encoded, done, same⟩ := Attempt.bind_eq_ok_iff.1 encoding
  cases same
  rw [encodeAll_eq_mapM, Attempt.mapM_eq_ok_iff] at done
  refine ⟨?_, rfl, done.length_eq.symm⟩
  rw [Schema.find] at found
  split at found
  · next declared => exact isSome_named?_iff.1 (Option.isSome_of_eq_some declared)
  · cases found

theorem forall₂_of_build {table : String} {o : Options} {request : Request}
    (built : build s table filters o = .ok request) :
    request.table = table ∧ request.fields = o.fields ∧ request.limit = o.limit ∧
      List.Forall₂ (fun entry condition => condition.1 = entry.1 ∧ entry.1 ∈ s.names ∧
        condition.2.operator = entry.2.operator ∧
        condition.2.operands.length = entry.2.operands.length) filters request.conditions := by
  obtain ⟨conditions, made, same⟩ := Attempt.bind_eq_ok_iff.1 built
  cases same
  rw [conditionsOf_eq_mapM, Attempt.mapM_eq_ok_iff] at made
  refine ⟨rfl, rfl, rfl, made.imp fun entry condition one => ?_⟩
  obtain ⟨c, done, rfl⟩ := Attempt.map_eq_ok_iff.1 one
  exact ⟨rfl, exists_of_ofFilter done⟩

/-! The entries of a request. -/

section Entries

open Value (textEntryAt?)

variable (key name : String) (r : Request)

theorem textEntryAt?_append (entries others : List (Value × Value)) :
    textEntryAt? key (entries ++ others) =
      (textEntryAt? key entries).or (textEntryAt? key others) := by
  rw [textEntryAt?, List.find?_append, Option.map_or]
  rfl

theorem textEntryAt?_singleton (v : Value) :
    textEntryAt? key [(.text name, v)] = if name = key then some v else none := by
  by_cases same : name = key <;> simp [textEntryAt?, Value.text?, same]

theorem textEntryAt?_ite (empty : Bool) (v : Value) :
    textEntryAt? key (if empty then [] else [(.text name, v)]) =
      if name = key ∧ empty = false then some v else none := by
  cases empty
  · simp [textEntryAt?_singleton]
  · simp [textEntryAt?]

theorem textEntryAt?_elim {α : Type} (found : Option α) (form : α → Value) :
    textEntryAt? key (found.elim [] fun x => [(.text name, form x)]) =
      if name = key then found.map form else none := by
  cases found
  · simp [textEntryAt?]
  · simp [textEntryAt?_singleton]

theorem entryAt?_toValue :
    r.toValue.entryAt? key =
      ((((if "TableName" = key then some (.text r.table) else none).or
        (if "ScanFilter" = key ∧ r.conditions.isEmpty = false then
          some (.map (r.conditions.map fun (key, c) => (.text key, c.toValue))) else none)).or
        (if "AttributesToGet" = key ∧ r.fields.isEmpty = false then
          some (.list (r.fields.map .text)) else none)).or
        (if "Limit" = key then r.limit.map .int else none)).or
        (if "ExclusiveStartKey" = key then r.startKey.map fun v => v else none) := by
  simp only [toValue, Value.entryAt?, textEntryAt?_append, textEntryAt?_singleton, textEntryAt?_ite,
    textEntryAt?_elim]

theorem entryAt?_tableName : r.toValue.entryAt? "TableName" = some (.text r.table) := by
  simp [entryAt?_toValue]

theorem entryAt?_scanFilter :
    r.toValue.entryAt? "ScanFilter" = if r.conditions.isEmpty = false then
      some (.map (r.conditions.map fun (key, c) => (.text key, c.toValue))) else none := by
  simp [entryAt?_toValue]

theorem entryAt?_attributesToGet :
    r.toValue.entryAt? "AttributesToGet" =
      if r.fields.isEmpty = false then some (.list (r.fields.map .text)) else none := by
  simp [entryAt?_toValue]

theorem entryAt?_limit : r.toValue.entryAt? "Limit" = r.limit.map .int := by
  simp [entryAt?_toValue]

end Entries

end Request

end TableScan
