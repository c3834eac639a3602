/-
The two ways in which attributes become JSON (`PopulateAttribute`, `PopulateOwnedAttribute`).

Both begin an array with `attribute[key] = {}`, which is null, so that an array of no elements
stays null.

* `populateOwnedAttribute_eq_set` — an owned attribute is one assignment;
* `convert_alike_iff` — a value and the copy of it that is owned become the same entry, the one
  that stands for them, unless they are an empty array or a view that is not a C string.
-/
import OtelContrib.Fluentd.Views

open Otel.Common

namespace Fluentd

/-- `PopulateOwnedAttribute`. -/
def populateOwnedAttribute (attrs : Json) (key : StringView) : OwnedAttributeValue → Option Json
  | .bool v => attrs.set key.data (.bool v)
  | .int v => attrs.set key.data (.int v.toInt64)
  | .uint v => attrs.set key.data (.uint v.toUInt64)
  | .int64 v => attrs.set key.data (.int v)
  | .double bits => attrs.set key.data (.float bits)
  | .string v => attrs.set key.data (.string v)
  | .spanBool vs => pushAll attrs key.data (vs.map .bool)
  | .spanInt vs => pushAll attrs key.data (vs.map fun v => .int v.toInt64)
  | .spanUInt vs => pushAll attrs key.data (vs.map fun v => .uint v.toUInt64)
  | .spanInt64 vs => pushAll attrs key.data (vs.map .int)
  | .spanDouble bits => pushAll attrs key.data (bits.map .float)
  | .spanString vs => pushAll attrs key.data (vs.map .string)
  | .uint64 v => attrs.set key.data (.uint v)
  | .spanUInt64 vs => pushAll attrs key.data (vs.map .uint)
  | .spanByte vs => pushAll attrs key.data (vs.map fun v => .uint v.toUInt64)

/-- The JSON of an owned attribute. -/
def ownedJson : OwnedAttributeValue → Json
  | .bool v => .bool v
  | .int v => .int v.toInt64
  | .uint v => .uint v.toUInt64
  | .int64 v => .int v
  | .double bits => .float bits
  | .string v => .string v
  | .spanBool vs => spanValue (vs.map .bool)
  | .spanInt vs => spanValue (vs.map fun v => .int v.toInt64)
  | .spanUInt vs => spanValue (vs.map fun v => .uint v.toUInt64)
  | .spanInt64 vs => spanValue (vs.map .int)
  | .spanDouble bits => spanValue (bits.map .float)
  | .spanString vs => spanValue (vs.map .string)
  | .uint64 v => .uint v
  | .spanUInt64 vs => spanValue (vs.map .uint)
  | .spanByte vs => spanValue (vs.map fun v => .uint v.toUInt64)

theorem populateOwnedAttribute_eq_set (attrs : Json) (key : StringView)
    (value : OwnedAttributeValue) :
    populateOwnedAttribute attrs key value = attrs.set key.data (ownedJson value) := by
  cases value <;> first | rfl | exact pushAll_eq_set ..

/-! ### What stands for a value -/

/-- The scalar of a value, or the array of its elements. -/
def standsFor : AttributeValue → Json
  | .bool v => .bool v
  | .int32 v => .int v.toInt64
  | .int64 v => .int v
  | .uint32 v => .uint v.toUInt64
  | .uint64 v => .uint v
  | .double bits => .float bits
  | .charPointer memory => .string (cString memory)
  | .string v => .string v.viewed
  | .spanUInt8 vs => .array (vs.map fun v => .uint v.toUInt64)
  | .spanBool vs => .array (vs.map .bool)
  | .spanInt32 vs => .array (vs.map fun v => .int v.toInt64)
  | .spanInt64 vs => .array (vs.map .int)
  | .spanUInt32 vs => .array (vs.map fun v => .uint v.toUInt64)
  | .spanUInt64 vs => .array (vs.map .uint)
  | .spanDouble bits => .array (bits.map .float)
  | .spanString vs => .array (vs.map fun v => .string v.viewed)

def isEmptySpan : AttributeValue → Bool
  | .spanUInt8 vs => vs.isEmpty
  | .spanBool vs => vs.isEmpty
  | .spanInt32 vs => vs.isEmpty
  | .spanInt64 vs => vs.isEmpty
  | .spanUInt32 vs => vs.isEmpty
  | .spanUInt64 vs => vs.isEmpty
  | .spanDouble bits => bits.isEmpty
  | .spanString vs => vs.isEmpty
  | _ => false

theorem spanValue_eq_array_iff {α : Type} (vs : List α) (f : α → Json) :
    spanValue (vs.map f) = .array (vs.map f) ↔ vs.isEmpty = false := by
  cases vs with
  | nil => simp [spanValue]
  | cons v vs => simp [spanValue]

/-- Only a string has a view that is handed on. -/
theorem iff_and_views {p : Prop} {value : AttributeValue} (h : ∀ v, value ≠ .string v) :
    p ↔ p ∧ ∀ v, value = .string v → v.IsCString :=
  ⟨fun hp => ⟨hp, fun v hv => (h v hv).elim⟩, And.left⟩

/-- A value is what stands for it unless it is an empty array or a view read beyond its end. -/
theorem attributeJson_eq_standsFor_iff (value : AttributeValue) :
    attributeJson value = standsFor value ↔
      isEmptySpan value = false ∧ ∀ v, value = .string v → v.IsCString := by
  cases value with
  | string v =>
    rw [← attributeJson_eq_iff (.string v)]
    exact ⟨fun h => ⟨rfl, h⟩, And.right⟩
  | spanUInt8 vs => exact (spanValue_eq_array_iff vs _).trans (iff_and_views nofun)
  | spanBool vs => exact (spanValue_eq_array_iff vs _).trans (iff_and_views nofun)
  | spanInt32 vs => exact (spanValue_eq_array_iff vs _).trans (iff_and_views nofun)
  | spanInt64 vs => exact (spanValue_eq_array_iff vs _).trans (iff_and_views nofun)
  | spanUInt32 vs => exact (spanValue_eq_array_iff vs _).trans (iff_and_views nofun)
  | spanUInt64 vs => exact (spanValue_eq_array_iff vs _).trans (iff_and_views nofun)
  | spanDouble bits => exact (spanValue_eq_array_iff bits _).trans (iff_and_views nofun)
  | spanString vs => exact (spanValue_eq_array_iff vs _).trans (iff_and_views nofun)
  | _ => exact ⟨fun _ => ⟨rfl, nofun⟩, fun _ => rfl⟩

/-- The owned copy is what stands for the value unless that is an empty array. -/
theorem ownedJson_owned {value : AttributeValue} (h : isEmptySpan value = false) :
    ownedJson value.owned = standsFor value := by
  cases value with
  | spanUInt8 vs => exact (spanValue_eq_array_iff vs _).mpr h
  | spanBool vs => exact (spanValue_eq_array_iff vs _).mpr h
  | spanInt32 vs => exact (spanValue_eq_array_iff vs _).mpr h
  | spanInt64 vs => exact (spanValue_eq_array_iff vs _).mpr h
  | spanUInt32 vs => exact (spanValue_eq_array_iff vs _).mpr h
  | spanUInt64 vs => exact (spanValue_eq_array_iff vs _).mpr h
  | spanDouble bits => exact (spanValue_eq_array_iff bits _).mpr h
  | spanString vs =>
    have helements : (vs.map StringView.viewed).map Json.string =
        vs.map fun v => .string v.viewed :=
      List.map_map
    rw [AttributeValue.owned, ownedJson, helements]
    exact (spanValue_eq_array_iff vs _).mpr h
  | _ => rfl

/-! ### Both ladders -/

/-- In every object, both put what stands for the value under the key, over what was there, and
leave every other key alone. -/
def ConvertAlike (key : StringView) (value : AttributeValue) : Prop :=
  ∀ (attrs : Json) (m : OrderedMap Bytes Json), attrs.members? = some m.entries →
    ∃ m' : OrderedMap Bytes Json,
      populateAttribute attrs key value = some (.object m'.entries) ∧
      populateOwnedAttribute attrs key value.owned = some (.object m'.entries) ∧
      m'.find? key.viewed = some (standsFor value) ∧
      ∀ k ≠ key.viewed, m'.find? k = m.find? k

/-- Under a key without a NUL, a value and its owned copy become the same entry, what stands for
them, exactly when the key and a string are followed by a NUL and the value is no empty array. -/
theorem convert_alike_iff {key : StringView} (hkey : ∀ b ∈ key.viewed, b ≠ 0)
    (value : AttributeValue) :
    ConvertAlike key value ↔
      cString key.beyond = [] ∧ isEmptySpan value = false ∧
        ∀ v, value = .string v → v.IsCString := by
  rw [← attributeJson_eq_standsFor_iff]
  constructor
  · intro h
    obtain ⟨m', hborrowed, -, hfind, -⟩ := h .null ∅ rfl
    rw [populateAttribute_eq_set] at hborrowed
    have hentries : [(key.data, attributeJson value)] = m'.entries :=
      Json.object.inj (Option.some.inj hborrowed)
    rw [OrderedMap.find?, ← hentries, OrderedMap.lookup_cons] at hfind
    by_cases hdata : key.data = key.viewed
    · rw [if_pos hdata] at hfind
      exact ⟨(key.data_eq_viewed_iff.mp hdata).2, Option.some.inj hfind⟩
    · rw [if_neg hdata] at hfind
      cases hfind
  · rintro ⟨hbeyond, hvalue⟩ attrs m hm
    have hdata : key.data = key.viewed := key.data_eq_viewed_iff.mpr ⟨hkey, hbeyond⟩
    have hempty := ((attributeJson_eq_standsFor_iff value).mp hvalue).1
    refine ⟨m.insert key.viewed (standsFor value), ?_, ?_, OrderedMap.find?_insert_self .., ?_⟩
    · rw [populateAttribute_eq_set, hdata, hvalue]
      exact Json.set_eq hm _ _
    · rw [populateOwnedAttribute_eq_set, hdata, ownedJson_owned hempty]
      exact Json.set_eq hm _ _
    · exact fun k hk => OrderedMap.find?_insert_of_ne m (Ne.symm hk) _

/-- An array of one boolean, under the key of a literal. -/
theorem convert_alike_sample : ConvertAlike ⟨ascii "ok", [0]⟩ (.spanBool [true]) :=
  have hkey : ∀ b ∈ ascii "ok", b ≠ 0 := List.forall_mem_ne'.mpr (by decide)
  (convert_alike_iff hkey _).mpr ⟨rfl, rfl, nofun⟩

/-- An empty array becomes null, in both. -/
theorem empty_span_is_null :
    ¬ ConvertAlike ⟨ascii "ok", [0]⟩ (.spanBool []) ∧
      populateAttribute .null ⟨ascii "ok", [0]⟩ (.spanBool []) =
        some (.object [(ascii "ok", .null)]) ∧
      populateOwnedAttribute .null ⟨ascii "ok", [0]⟩ (.spanBool []) =
        some (.object [(ascii "ok", .null)]) := by
  refine ⟨fun h => ?_, rfl, rfl⟩
  obtain ⟨m', hborrowed, -, hfind, -⟩ := h .null ∅ rfl
  have hentries : [(ascii "ok", Json.null)] = m'.entries :=
    Json.object.inj (Option.some.inj hborrowed)
  rw [OrderedMap.find?, ← hentries] at hfind
  cases hfind

end Fluentd
