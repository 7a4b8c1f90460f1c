import Tradex.Domain.Rereading

/-!
# Reading what was written

The dictionary of a record has an entry for each of its fields, so reading it finds
every argument of the constructor. By induction over the object, what was written is
read back as it was computed.
-/

namespace Tradex.Domain

open List

namespace Python

variable (py : Python)

theorem parseTimestampText_isoformat {time : DateTime} :
    py.parseTimestampText (py.isoformat time) = .ok time.withOffset.pinned := by
  have hfmt : time.isoFormat ∈ isoFormats := by
    unfold DateTime.isoFormat
    split <;> decide
  have hread := py.strptime_isoformat time
  simp only [isoFormats] at hread
  simp only [isoFormats, mem_cons, not_mem_nil, or_false] at hfmt
  -- The formats before the one in which the time was written refuse its text.
  have hfind : timestampFormats.findSome? (py.strptime (py.isoformat time)) =
      some time.withOffset := by
    rcases hfmt with hfmt | hfmt | hfmt | hfmt <;> simp [timestampFormats, isoFormats, hread, hfmt]
  rw [parseTimestampText, py.strip_isoformat, hfind]

variable {optional : Bool} {wire : Obj} {items out : List Obj} {cls base : RecordClass}

theorem orRaw_coerce_of_leaf {val : Obj} {type : Annotation} (hleaf : Leaf val type)
    (hdate : type.datesOptional optional = true) (hwire : py.toDict val = .ok wire) :
    orRaw optional wire (py.coerce wire type) = .ok (py.reread val type) := by
  cases hleaf with
  | bool val =>
    cases hwire
    simp only [coerce, coerceLeaf, py.bool_bool]
    rfl
  | boolAsInt val =>
    cases hwire
    simp only [coerce, coerceLeaf, py.int_bool]
    rfl
  | int val =>
    cases hwire
    simp only [coerce, coerceLeaf, py.int_int]
    rfl
  | str val =>
    cases hwire
    simp only [coerce, coerceLeaf, py.str_str]
    rfl
  | strAsId val =>
    cases hwire
    rfl
  | decimal val =>
    cases hwire
    simp only [coerce, coerceLeaf, toDecimal, py.str_str, py.decimal_str]
    rfl
  | uuid val =>
    cases hwire
    simp only [coerce, coerceLeaf, uuidOrText, py.str_str, py.uuid_uuidText]
    rfl
  | datetime val =>
    cases hwire
    simp only [coerce, coerceLeaf, parseTimestamp, py.parseTimestampText_isoformat]
    rfl
  | datetimeAsDate val =>
    cases hwire
    rw [ Annotation.datesOptional] at hdate
    simp only [coerce, coerceLeaf, dateFromIsoformat, Obj.text, py.date_isoformat, hdate]
    rfl
  | date val =>
    cases hwire
    simp only [coerce, coerceLeaf, dateFromIsoformat, Obj.text, py.date_dateText]
    rfl
  | enum hmember =>
    cases hwire
    simp only [coerce, coerceLeaf, member, Obj.text, if_pos hmember]
    rfl
  | enumAsStr cls val =>
    cases hwire
    simp only [coerce, coerceLeaf, py.str_enum]
    rfl
  | enumAsId cls val =>
    cases hwire
    simp only [coerce, coerceLeaf, uuidOrText, py.str_enum, reread, rereadLeaf, py.str_str]
    rfl
  | objects keys vals =>
    obtain ⟨out, hout, rfl⟩ := except_map_eq_ok hwire
    rw [reread, hout]
    rfl

variable {fields : List Field} {vals : List Obj}

theorem coerceEntries_append {left right : List String} {others : List Obj}
    (hlen : left.length = vals.length) :
    py.coerceEntries (left ++ right) (vals ++ others) fields =
      py.coerceEntries left vals fields ++ py.coerceEntries right others fields := by
  induction left generalizing vals with
  | nil =>
    cases length_eq_zero_iff.1 hlen.symm
    simp [coerceEntries]
  | cons key keys ih =>
    cases vals with
    | nil => cases hlen
    | cons val vals =>
      rw [cons_append, cons_append, coerceEntries, coerceEntries, ih (Nat.succ.inj hlen)]
      split <;> rfl

theorem lookup_zip {Value : Type} {keys : List String} {vals : List Value} (hnd : keys.Nodup)
    (hlen : keys.length = vals.length) :
    List.Forall₂ (fun key val ↦ key ∈ keys ∧ (keys.zip vals).lookup key = some val) keys vals := by
  induction keys generalizing vals with
  | nil =>
    cases length_eq_zero_iff.1 hlen.symm
    exact .nil
  | cons key keys ih =>
    cases vals with
    | nil => cases hlen
    | cons val vals =>
      rw [nodup_cons] at hnd
      refine .cons ⟨mem_cons_self, by simp⟩ ((ih hnd.2 (Nat.succ.inj hlen)).imp ?_)
      rintro other found ⟨hmem, hfind⟩
      have hne : (other == key) = false := by
        rw [beq_eq_false_iff_ne]
        rintro rfl
        exact hnd.1 hmem
      exact ⟨mem_cons_of_mem _ hmem, by rw [zip_cons_cons, lookup_cons, hne, hfind]⟩

variable {vals : List Obj}

theorem collect_eq_ok {rows : List (String × Except Raised Obj)}
    (hrows : List.Forall₂ (fun field val ↦ rows.lookup field.name = some (.ok val))
      fields vals) : collect rows fields = .ok (vals.map some) := by
  induction hrows with
  | nil => rfl
  | cons hfst hrest ih =>
    rw [collect, hfst]
    simp only [ih]
    rfl

variable {cls : RecordClass}

theorem fill_some (hlen : fields.length = vals.length) :
    py.fill cls fields (vals.map some) = .ok vals := by
  induction fields generalizing vals with
  | nil =>
    cases length_eq_zero_iff.1 hlen.symm
    rfl
  | cons field fields ih =>
    cases vals with
    | nil => cases hlen
    | cons val vals =>
      rw [map_cons, fill]
      simp only [ih (Nat.succ.inj hlen)]
      rfl

theorem orRaw_false {val out : Obj} {res : Except Raised Obj}
    (hout : orRaw false val res = .ok out) : res = .ok out := by
  cases res with
  | error err => cases hout
  | ok val => exact hout

theorem toDictAll_cons {item : Obj} (hout : py.toDictAll (item :: items) = .ok out) :
    ∃ first rest, py.toDict item = .ok first ∧ py.toDictAll items = .ok rest ∧
      out = first :: rest := by
  obtain ⟨first, hfst, hmap⟩ := except_bind_eq_ok hout
  obtain ⟨rest, hrest, rfl⟩ := except_map_eq_ok hmap
  exact ⟨first, rest, hfst, hrest, rfl⟩

theorem length_toDictAll (hout : py.toDictAll items = .ok out) : out.length = items.length := by
  induction items generalizing out with
  | nil =>
    cases hout
    rfl
  | cons item items ih =>
    obtain ⟨first, rest, -, hrest, rfl⟩ := py.toDictAll_cons hout
    rw [length_cons, length_cons, ih hrest]

theorem length_areFields
    (hflds : Obj.areFields vals fields = true) : vals.length = fields.length := by
  induction vals generalizing fields with
  | nil =>
    cases fields with
    | nil => rfl
    | cons field fields => cases hflds
  | cons val vals ih =>
    cases fields with
    | nil => cases hflds
    | cons field fields =>
      rw [Obj.areFields, Bool.and_eq_true] at hflds
      rw [length_cons, length_cons, ih hflds.2]

theorem length_rereadFields : (py.rereadFields vals fields).length = vals.length := by
  induction vals generalizing fields with
  | nil => cases fields <;> rfl
  | cons val vals ih =>
    cases fields with
    | nil => rfl
    | cons field fields => rw [rereadFields, length_cons, length_cons, ih]

theorem targetOf_marker (hsub : cls.isSubclassOf base = true)
    {out : List Obj} (hlen : cls.fieldNames.length = out.length) :
    targetOf base (cls.fieldNames ++ [typeKey]) (out ++ [.str cls.marker]) = cls := by
  have hmiss : (cls.fieldNames.zip out).lookup typeKey = none := by
    rw [lookup_eq_none_iff]
    intro entry hent
    rw [bne_iff_ne]
    intro heq
    exact cls.typeKey_notMem (heq ▸ (of_mem_zip hent).1)
  have hmarker : ((cls.fieldNames ++ [typeKey]).zip (out ++ [.str cls.marker])).lookup typeKey =
      some (.str cls.marker) := by
    rw [zip_append hlen, lookup_append, hmiss]
    rfl
  rw [targetOf, hmarker]
  simp [Obj.text, RecordClass.find_marker hsub]

variable {arguments : List Obj}

theorem instantiate_reread (hflds : Obj.areFields vals cls.fields = true)
    (hmade : py.postInit cls arguments = .ok vals) :
    py.instantiate cls
        (cls.fieldNames.zip ((py.rereadFields vals cls.fields).map Except.ok)) =
      .ok (.record cls (py.settle cls.fields (py.rereadFields vals cls.fields))) := by
  have hlen : cls.fields.length = (py.rereadFields vals cls.fields).length := by
    rw [py.length_rereadFields, length_areFields hflds]
  have hlook : List.Forall₂ (fun (field : Field) (val : Obj) ↦
      (cls.fieldNames.zip ((py.rereadFields vals cls.fields).map
        (Except.ok : Obj → Except Raised Obj))).lookup field.name = some (.ok val))
      cls.fields (py.rereadFields vals cls.fields) := by
    have hzip := @lookup_zip (Except Raised Obj) _
      ((py.rereadFields vals cls.fields).map Except.ok) cls.fieldNames_nodup
      (by rw [RecordClass.fieldNames, length_map, length_map, hlen])
    rw [RecordClass.fieldNames, forall₂_map_left_iff, forall₂_map_right_iff] at hzip
    exact hzip.imp fun field val hfind ↦ hfind.2
  simp only [instantiate, collect_eq_ok hlook, Except.bind, py.fill_some hlen,
    py.postInit_rereadFields hflds hmade]
  rfl

theorem coerce_record {out : List Obj}
    (hsub : cls.isSubclassOf base = true) (hflds : Obj.areFields vals cls.fields = true)
    (hmade : py.postInit cls arguments = .ok vals) (hout : py.toDictAll vals = .ok out)
    (hrows : py.coerceEntries cls.fieldNames out cls.fields =
      cls.fieldNames.zip ((py.rereadFields vals cls.fields).map Except.ok)) :
    py.coerce (.dict (cls.fieldNames ++ [typeKey]) (out ++ [.str cls.marker])) (.record base) =
      .ok (py.reread (.record cls vals) (.record base)) := by
  have hlen : cls.fieldNames.length = out.length := by
    rw [RecordClass.fieldNames, length_map, py.length_toDictAll hout, length_areFields hflds]
  have hunk : cls.fields.find? (fun field ↦ decide (field.name = typeKey)) = none := by
    rw [find?_eq_none]
    intro field hfield
    rw [decide_eq_true_eq]
    intro hname
    exact cls.typeKey_notMem (hname ▸ mem_map_of_mem hfield)
  have hmarker : py.coerceEntries [typeKey] [.str cls.marker] cls.fields = [] := by
    rw [coerceEntries, hunk, coerceEntries]
    simp
  simp [coerce, targetOf_marker hsub hlen, py.coerceEntries_append hlen, hmarker,
    hrows, py.instantiate_reread hflds hmade, reread]

mutual

theorem orRaw_coerce_toDict (val : Obj) {type : Annotation} {optional : Bool} {wire : Obj}
    (hdate : type.datesOptional optional = true) (hinst : val.isInstance type = true)
    (hmade : py.Constructed val) (hwire : py.toDict val = .ok wire) :
    orRaw optional wire (py.coerce wire type) = .ok (py.reread val type) := by
  cases Obj.typed_of_isInstance hinst with
  | leaf hleaf => exact py.orRaw_coerce_of_leaf hleaf hdate hwire
  | @record cls base vals hsub hvals =>
    obtain ⟨⟨arguments, hinit⟩, hparts⟩ := hmade
    obtain ⟨out, hout, rfl⟩ := except_map_eq_ok hwire
    have hrows := coerceEntries_toDictAll vals
      (fun field hfield ↦ find_of_nodup cls.fieldNames_nodup hfield)
      cls.fields_datesOptional hvals hparts hout
    rw [py.coerce_record hsub hvals hinit hout hrows, orRaw]
  | @tupleOf items item hitems =>
    obtain ⟨out, hout, rfl⟩ := except_map_eq_ok hwire
    simp only [coerce, coerceAll_toDictAll items hdate hitems hmade hout]
    rfl
  | @pair items first second hitems =>
    obtain ⟨out, hout, rfl⟩ := except_map_eq_ok hwire
    rw [ Annotation.datesOptional, Bool.and_eq_true] at hdate
    have hboth : ∀ field ∈ [Field.mk "0" first false, Field.mk "1" second false],
        field.type.datesOptional field.optional = true ∧ field.optional = false := by
      simp [hdate.1, hdate.2]
    have hzip := coerceZip_toDictAll items hboth hitems hmade hout
    simp only [map_cons, map_nil] at hzip
    simp only [coerce, hzip]
    rfl

theorem coerceAll_toDictAll (items : List Obj) {type : Annotation} {out : List Obj}
    (hdate : type.datesOptional false = true) (hinst : Obj.areInstances items type = true)
    (hmade : py.AllConstructed items) (hout : py.toDictAll items = .ok out) :
    py.coerceAll out type = .ok (py.rereadAll items type) := by
  cases items with
  | nil =>
    cases hout
    rfl
  | cons item items =>
    obtain ⟨first, rest, hfst, hrest, rfl⟩ := py.toDictAll_cons hout
    rw [Obj.areInstances, Bool.and_eq_true] at hinst
    have hitem := orRaw_coerce_toDict item hdate hinst.1 hmade.1 hfst
    rw [coerceAll, coerceAll_toDictAll items hdate hinst.2 hmade.2 hrest, orRaw_false hitem]
    rfl

theorem coerceZip_toDictAll (vals : List Obj) {fields : List Field} {out : List Obj}
    (hdates : ∀ field ∈ fields,
      field.type.datesOptional field.optional = true ∧ field.optional = false)
    (hflds : Obj.areFields vals fields = true) (hmade : py.AllConstructed vals)
    (hout : py.toDictAll vals = .ok out) :
    py.coerceZip out (fields.map Field.type) = .ok (py.rereadFields vals fields) := by
  cases vals with
  | nil =>
    cases hout
    cases fields <;> simp [coerceZip, rereadFields]
  | cons val vals =>
    cases fields with
    | nil => cases hflds
    | cons field fields =>
      obtain ⟨first, rest, hfst, hrest, rfl⟩ := py.toDictAll_cons hout
      rw [Obj.areFields, Bool.and_eq_true] at hflds
      obtain ⟨hdate, hopt⟩ := hdates field mem_cons_self
      rw [hopt, Bool.and_false] at hflds
      have hval := orRaw_coerce_toDict val hdate hflds.1 hmade.1 hfst
      rw [hopt] at hval
      rw [map_cons, coerceZip, orRaw_false hval,
        coerceZip_toDictAll vals (fun other hother ↦ hdates other (mem_cons_of_mem _ hother))
          hflds.2 hmade.2 hrest]
      rfl

theorem coerceEntries_toDictAll (vals : List Obj) {fields all : List Field} {out : List Obj}
    (hall : ∀ field ∈ fields, all.find? (fun other ↦ decide (other.name = field.name)) = some field)
    (hdate : ∀ field ∈ fields, field.type.datesOptional field.optional = true)
    (hflds : Obj.areFields vals fields = true) (hmade : py.AllConstructed vals)
    (hout : py.toDictAll vals = .ok out) :
    py.coerceEntries (fields.map Field.name) out all =
      (fields.map Field.name).zip ((py.rereadFields vals fields).map Except.ok) := by
  cases vals with
  | nil =>
    cases hout
    cases fields <;> simp [coerceEntries, rereadFields]
  | cons val vals =>
    cases fields with
    | nil => cases hflds
    | cons field fields =>
      obtain ⟨first, rest, hfst, hrest, rfl⟩ := py.toDictAll_cons hout
      rw [Obj.areFields, Bool.and_eq_true, Bool.or_eq_true, Bool.and_eq_true] at hflds
      have hval : orRaw field.optional first (py.coerce first field.type) =
          .ok (py.reread val field.type) := by
        rcases hflds.1 with hnone | hinst
        · cases eq_none_of_isNone hnone.1
          cases hfst
          rfl
        · exact orRaw_coerce_toDict val (hdate field mem_cons_self) hinst hmade.1 hfst
      have htail := coerceEntries_toDictAll vals
        (fun other hother ↦ hall other (mem_cons_of_mem _ hother))
        (fun other hother ↦ hdate other (mem_cons_of_mem _ hother)) hflds.2 hmade.2 hrest
      rw [map_cons, coerceEntries, hall field mem_cons_self]
      simp [hval, htail, rereadFields]

end

end Python

end Tradex.Domain
