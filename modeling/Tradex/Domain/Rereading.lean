import Tradex.Domain.Serialization

/-!
# What is read back from a dictionary

The object that is read back, without the dictionary in between: times get their offset as their
zone, or UTC, a text that stands for an identifier may become a UUID, and a symbol is normalised
once more.
-/

namespace Tradex.Domain

open Tradex.Text (strip)

namespace Obj

def leafInstances : Obj → List Annotation
  | .bool _ => [.bool, .int]
  | .int _ => [.int]
  | .str _ => [.str, .uuidOrStr]
  | .decimal _ => [.decimal]
  | .uuid _ => [.uuidOrStr]
  | .datetime _ => [.datetime, .date]
  | .date _ => [.date]
  | .enum cls value => if value ∈ cls.members then [.enum cls, .str, .uuidOrStr] else []
  | .dict keys values => if keys.length = values.length then [.objects] else []
  | _ => []

mutual

def isInstance : Obj → Annotation → Bool
  | .record cls values, type =>
    match type with
    | .record base => cls.isSubclassOf base && areFields values cls.fields
    | _ => false
  | .tuple items, type =>
    match type with
    | .tupleOf item => areInstances items item
    | .pair first second => areFields items [⟨"0", first, false⟩, ⟨"1", second, false⟩]
    | _ => false
  | obj, type => type ∈ obj.leafInstances

def areInstances : List Obj → Annotation → Bool
  | [], _ => true
  | item :: rest, type => item.isInstance type && areInstances rest type

def areFields : List Obj → List Field → Bool
  | [], [] => true
  | value :: rest, field :: fields =>
    (value.isNone && field.optional || value.isInstance field.type) && areFields rest fields
  | _, _ => false

end

end Obj

namespace Python

variable (py : Python)

mutual

def Constructed : Obj → Prop
  | .record cls values =>
    (∃ arguments, py.postInit cls arguments = .ok values) ∧ AllConstructed values
  | .tuple items => AllConstructed items
  | .list items => AllConstructed items
  | .dict _ values => AllConstructed values
  | _ => True

def AllConstructed : List Obj → Prop
  | [] => True
  | item :: items => Constructed item ∧ AllConstructed items

end

def rereadLeaf : Obj → Annotation → Obj
  | .bool value, .int => .int (if value then 1 else 0)
  | .str value, .uuidOrStr => py.uuidOrText (.str value)
  | .enum _ value, .uuidOrStr => py.uuidOrText (.str value)
  | .enum _ value, .str => .str value
  | .datetime time, .datetime => .datetime time.withOffset.pinned
  | .datetime time, .date => .str (py.isoformat time)
  | value, _ => value

def settleField (field : Field) (value : Obj) : Obj :=
  if field.name = "symbol" then
    match value.text with
    | some text => .str (py.normalizeSymbol text true)
    | none => value
  else value

def settle : List Field → List Obj → List Obj
  | field :: fields, value :: values => py.settleField field value :: settle fields values
  | _, values => values

mutual

def reread : Obj → Annotation → Obj
  | .record cls values, _ => .record cls (py.settle cls.fields (rereadFields values cls.fields))
  | .tuple items, type =>
    match type with
    | .tupleOf item => .tuple (rereadAll items item)
    | .pair first second => .tuple (rereadFields items [⟨"0", first, false⟩, ⟨"1", second, false⟩])
    | _ => .tuple items
  | .dict keys values, _ =>
    match py.toDictAll values with
    | .ok out => .dict keys out
    | .error _ => .dict keys values
  | value, type => py.rereadLeaf value type

def rereadAll : List Obj → Annotation → List Obj
  | [], _ => []
  | item :: items, type => reread item type :: rereadAll items type

def rereadFields : List Obj → List Field → List Obj
  | value :: values, field :: fields => reread value field.type :: rereadFields values fields
  | values, _ => values

end

end Python

theorem find_of_nodup {Item Key : Type} [DecidableEq Key] {key : Item → Key} {items : List Item}
    (hnd : (items.map key).Nodup) {item : Item} (hitem : item ∈ items) :
    items.find? (fun other ↦ decide (key other = key item)) = some item := by
  obtain ⟨left, right, hsplit⟩ := List.append_of_mem hitem
  rw [hsplit, List.map_append] at hnd
  have hleft : ∀ other ∈ left, ¬ key other = key item := by
    intro other hother hkey
    exact (List.nodup_append.1 hnd).2.2 _ (List.mem_map_of_mem hother) _ List.mem_cons_self hkey
  rw [hsplit, List.find?_append, List.find?_eq_none.2 (by simpa using hleft), Option.none_or,
    List.find?_cons_of_pos (by simp)]

def Annotation.datesOptional : Bool → Annotation → Bool
  | optional, .date => optional
  | _, .tupleOf item => item.datesOptional false
  | _, .pair first second => first.datesOptional false && second.datesOptional false
  | _, _ => true

variable {base cls : RecordClass}

namespace RecordClass

theorem fieldNames_nodup (cls : RecordClass) : cls.fieldNames.Nodup := by
  cases cls <;> decide +kernel

theorem typeKey_notMem (cls : RecordClass) : typeKey ∉ cls.fieldNames := by
  cases cls <;> decide +kernel

theorem fields_datesOptional (cls : RecordClass) :
    ∀ field ∈ cls.fields, field.type.datesOptional field.optional = true := by
  have hall : cls.fields.all (fun field ↦ field.type.datesOptional field.optional) = true := by
    cases cls <;> decide +kernel
  exact fun field hfield ↦ List.all_eq_true.1 hall field hfield

theorem fields_symbol (cls : RecordClass) : ∀ field ∈ cls.fields, field.name = "symbol" →
    field.type = .str ∧ field.optional = false := by
  have hall : cls.fields.all (fun field ↦ decide (field.name = "symbol" →
      field.type = .str ∧ field.optional = false)) = true := by
    cases cls <;> decide +kernel
  exact fun field hfield ↦ of_decide_eq_true (List.all_eq_true.1 hall field hfield)

theorem find_marker (hsub : cls.isSubclassOf base = true) :
    base.subclasses.find? (fun other ↦ decide (other.marker = cls.marker)) = some cls := by
  have hmarkers : (base.subclasses.map marker).Nodup := by cases base <;> decide +kernel
  rw [isSubclassOf, decide_eq_true_iff] at hsub
  exact find_of_nodup hmarkers hsub

end RecordClass

variable {value : Obj}

section

variable {fields : List Field} {values out : List Obj} {name other : String} {field : Field}
  {change : Obj → Except Raised Obj}

theorem setAttribute_eq_self
    (hchg : ∀ value, getAttribute fields values name = some value → change value = .ok value) :
    setAttribute name change fields values = .ok values := by
  induction fields generalizing values with
  | nil => rfl
  | cons first rest ih =>
    cases values with
    | nil => rfl
    | cons value values =>
      rw [setAttribute]
      by_cases hname : first.name = name
      · rw [if_pos hname, hchg value (by rw [getAttribute, if_pos hname])]
        rfl
      · rw [if_neg hname, ih fun value hval ↦ hchg value ?_]
        · rfl
        · rw [getAttribute, if_neg hname, hval]

theorem setAttribute_cons_eq_ok {first : Field} {rest : List Field} {old : Obj} {olds : List Obj}
    (hset : setAttribute name change (first :: rest) (old :: olds) = .ok out) :
    (first.name = name ∧ ∃ new, change old = .ok new ∧ out = new :: olds) ∨
      (first.name ≠ name ∧
        ∃ news, setAttribute name change rest olds = .ok news ∧ out = old :: news) := by
  rw [setAttribute] at hset
  by_cases hname : first.name = name
  · rw [if_pos hname] at hset
    obtain ⟨new, hnew, rfl⟩ := except_map_eq_ok hset
    exact .inl ⟨hname, new, hnew, rfl⟩
  · rw [if_neg hname] at hset
    obtain ⟨news, hnews, rfl⟩ := except_map_eq_ok hset
    exact .inr ⟨hname, news, hnews, rfl⟩

theorem of_setAttribute (hset : setAttribute name change fields values = .ok out)
    (hval : getAttribute fields out name = some value) :
    ∃ old, getAttribute fields values name = some old ∧ change old = .ok value := by
  induction fields generalizing values out with
  | nil => cases hval
  | cons first rest ih =>
    cases values with
    | nil =>
      cases hset
      cases hval
    | cons old olds =>
      rcases setAttribute_cons_eq_ok hset with ⟨hname, new, hnew, rfl⟩ | ⟨hname, news, hnews, rfl⟩
      · rw [getAttribute, if_pos hname, Option.some_inj] at hval
        exact ⟨old, by rw [getAttribute, if_pos hname], hval ▸ hnew⟩
      · rw [getAttribute, if_neg hname] at hval ⊢
        exact ih hnews hval

theorem getAttribute_setAttribute_of_ne (hset : setAttribute name change fields values = .ok out)
    (hne : name ≠ other) : getAttribute fields out other = getAttribute fields values other := by
  induction fields generalizing values out with
  | nil => rfl
  | cons first rest ih =>
    cases values with
    | nil =>
      cases hset
      rfl
    | cons old olds =>
      rcases setAttribute_cons_eq_ok hset with ⟨hname, new, -, rfl⟩ | ⟨-, news, hnews, rfl⟩
      · have hother : ¬ first.name = other := fun heq ↦ hne (hname.symm.trans heq)
        rw [getAttribute, if_neg hother, getAttribute, if_neg hother]
      · rw [getAttribute, getAttribute, ih hnews]

theorem exists_getAttribute (hfields : Obj.areFields values fields = true)
    (hfind : fields.find? (fun field ↦ decide (field.name = name)) = some field) :
    ∃ value, getAttribute fields values name = some value ∧
      (value.isNone && field.optional || value.isInstance field.type) = true := by
  induction fields generalizing values with
  | nil => cases hfind
  | cons first rest ih =>
    cases values with
    | nil => cases hfields
    | cons value values =>
      rw [Obj.areFields, Bool.and_eq_true] at hfields
      rw [getAttribute]
      by_cases hname : first.name = name
      · rw [List.find?_cons_of_pos (by simpa using hname), Option.some_inj] at hfind
        subst hfind
        exact ⟨value, if_pos hname, hfields.1⟩
      · rw [List.find?_cons_of_neg (by simpa using hname)] at hfind
        rw [if_neg hname]
        exact ih hfields.2 hfind

variable (py : Python)

theorem getAttribute_rereadFields
    (hfind : fields.find? (fun field ↦ decide (field.name = name)) = some field) :
    getAttribute fields (py.rereadFields values fields) name =
      (getAttribute fields values name).map (py.reread · field.type) := by
  induction fields generalizing values with
  | nil => cases hfind
  | cons first rest ih =>
    cases values with
    | nil => rfl
    | cons value values =>
      rw [Python.rereadFields, getAttribute, getAttribute]
      by_cases hname : first.name = name
      · rw [List.find?_cons_of_pos (by simpa using hname), Option.some_inj] at hfind
        rw [if_pos hname, if_pos hname, hfind, Option.map_some]
      · rw [List.find?_cons_of_neg (by simpa using hname)] at hfind
        rw [if_neg hname, if_neg hname, ih hfind]

end

inductive Leaf : Obj → Annotation → Prop
  | bool (value : Bool) : Leaf (.bool value) .bool
  | boolAsInt (value : Bool) : Leaf (.bool value) .int
  | int (value : ℤ) : Leaf (.int value) .int
  | str (value : String) : Leaf (.str value) .str
  | strAsId (value : String) : Leaf (.str value) .uuidOrStr
  | decimal (value : Decimal) : Leaf (.decimal value) .decimal
  | uuid (value : ℕ) : Leaf (.uuid value) .uuidOrStr
  | datetime (value : DateTime) : Leaf (.datetime value) .datetime
  | datetimeAsDate (value : DateTime) : Leaf (.datetime value) .date
  | date (value : Date) : Leaf (.date value) .date
  | enum {cls : EnumClass} {value : String} (hmember : value ∈ cls.members) :
      Leaf (.enum cls value) (.enum cls)
  | enumAsStr (cls : EnumClass) (value : String) : Leaf (.enum cls value) .str
  | enumAsId (cls : EnumClass) (value : String) : Leaf (.enum cls value) .uuidOrStr
  | objects (keys : List String) (values : List Obj) : Leaf (.dict keys values) .objects

variable {type : Annotation}

theorem leaf_of_mem (hmem : type ∈ value.leafInstances) : Leaf value type := by
  cases value with
  | bool value =>
    rcases List.mem_pair.1 hmem with rfl | rfl
    · exact .bool value
    · exact .boolAsInt value
  | int value => exact List.mem_singleton.1 hmem ▸ .int value
  | str value =>
    rcases List.mem_pair.1 hmem with rfl | rfl
    · exact .str value
    · exact .strAsId value
  | decimal value => exact List.mem_singleton.1 hmem ▸ .decimal value
  | uuid value => exact List.mem_singleton.1 hmem ▸ .uuid value
  | datetime value =>
    rcases List.mem_pair.1 hmem with rfl | rfl
    · exact .datetime value
    · exact .datetimeAsDate value
  | date value => exact List.mem_singleton.1 hmem ▸ .date value
  | enum cls value =>
    rw [Obj.leafInstances] at hmem
    split at hmem
    next hmember =>
      simp only [List.mem_cons, List.not_mem_nil, or_false] at hmem
      rcases hmem with rfl | rfl | rfl
      · exact .enum hmember
      · exact .enumAsStr cls value
      · exact .enumAsId cls value
    next => cases hmem
  | dict keys values =>
    rw [Obj.leafInstances] at hmem
    split at hmem
    · exact List.mem_singleton.1 hmem ▸ .objects keys values
    · cases hmem
  | _ => cases hmem

inductive Typed : Obj → Annotation → Prop
  | leaf {value : Obj} {type : Annotation} (hleaf : Leaf value type) : Typed value type
  | record {cls base : RecordClass} {values : List Obj} (hsub : cls.isSubclassOf base = true)
      (hfields : Obj.areFields values cls.fields = true) : Typed (.record cls values) (.record base)
  | tupleOf {items : List Obj} {item : Annotation} (hitems : Obj.areInstances items item = true) :
      Typed (.tuple items) (.tupleOf item)
  | pair {items : List Obj} {first second : Annotation}
      (hitems : Obj.areFields items [⟨"0", first, false⟩, ⟨"1", second, false⟩] = true) :
      Typed (.tuple items) (.pair first second)

theorem Obj.typed_of_isInstance (hinst : value.isInstance type = true) : Typed value type := by
  cases value with
  | record cls values =>
    cases type with
    | record base =>
      simp only [Obj.isInstance, Bool.and_eq_true] at hinst
      exact .record hinst.1 hinst.2
    | _ => simp [Obj.isInstance] at hinst
  | tuple items =>
    cases type with
    | tupleOf item => exact .tupleOf hinst
    | pair first second => exact .pair hinst
    | _ => simp [Obj.isInstance] at hinst
  | _ => exact .leaf (leaf_of_mem (by simpa only [Obj.isInstance, decide_eq_true_eq] using hinst))

def Annotation.isExact : Annotation → Bool
  | .decimal => true
  | .enum _ => true
  | .record cls => cls = .price || cls = .quantity
  | .tupleOf item => item.isExact
  | .pair first second => first.isExact && second.isExact
  | _ => false

section Exact

variable (py : Python)

theorem settle_eq_self {fields : List Field} (hnames : ∀ field ∈ fields, field.name ≠ "symbol")
    {values : List Obj} : py.settle fields values = values := by
  induction fields generalizing values with
  | nil => rfl
  | cons field fields ih =>
    cases values with
    | nil => rfl
    | cons value values =>
      rw [Python.settle, Python.settleField, if_neg (hnames field List.mem_cons_self),
        ih fun other hother ↦ hnames other (List.mem_cons_of_mem _ hother)]

theorem reread_none {type : Annotation} : py.reread .none type = .none := by
  simp [Python.reread, Python.rereadLeaf]

theorem eq_none_of_isNone (hnone : value.isNone = true) : value = .none := by
  cases value with
  | none => rfl
  | _ => cases hnone

theorem exact_class (hexact : ( Annotation.record base).isExact = true)
    (hsub : cls.isSubclassOf base = true) : cls.fields = [⟨"value", .decimal, false⟩] := by
  simp only [ Annotation.isExact, Bool.or_eq_true, decide_eq_true_eq] at hexact
  rcases hexact with rfl | rfl <;>
    simp only [RecordClass.isSubclassOf, RecordClass.subclasses, List.mem_singleton,
      decide_eq_true_eq] at hsub <;>
    rw [hsub] <;> rfl

mutual

theorem reread_of_isExact (value : Obj) {type : Annotation} (hexact : type.isExact = true)
    (hinst : value.isInstance type = true) : py.reread value type = value := by
  cases Obj.typed_of_isInstance hinst with
  | leaf hleaf => cases hleaf <;> first | rfl | cases hexact
  | @record cls base values hsub hvals =>
    have hfields := exact_class hexact hsub
    have hexact : ∀ field ∈ cls.fields, field.type.isExact = true := by
      rw [hfields]
      decide
    have hnames : ∀ field ∈ cls.fields, field.name ≠ "symbol" := by
      rw [hfields]
      decide
    rw [Python.reread, rereadFields_of_isExact values hexact hvals, settle_eq_self py hnames]
  | @tupleOf items item hitems =>
    rw [ Annotation.isExact] at hexact
    simp [Python.reread, rereadAll_of_isExact items hexact hitems]
  | @pair items first second hitems =>
    simp only [ Annotation.isExact, Bool.and_eq_true] at hexact
    have hboth : ∀ field ∈ [Field.mk "0" first false, Field.mk "1" second false],
        field.type.isExact = true := by simp [hexact.1, hexact.2]
    simp [Python.reread, rereadFields_of_isExact items hboth hitems]

theorem rereadAll_of_isExact (items : List Obj) {type : Annotation} (hexact : type.isExact = true)
    (hinst : Obj.areInstances items type = true) : py.rereadAll items type = items := by
  cases items with
  | nil => rfl
  | cons item items =>
    rw [Obj.areInstances, Bool.and_eq_true] at hinst
    rw [Python.rereadAll, reread_of_isExact item hexact hinst.1,
      rereadAll_of_isExact items hexact hinst.2]

theorem rereadFields_of_isExact (values : List Obj) {fields : List Field}
    (hexact : ∀ field ∈ fields, field.type.isExact = true)
    (hfields : Obj.areFields values fields = true) :
    py.rereadFields values fields = values := by
  cases values with
  | nil => cases fields <;> rfl
  | cons value values =>
    cases fields with
    | nil => cases hfields
    | cons field fields =>
      rw [Obj.areFields, Bool.and_eq_true, Bool.or_eq_true, Bool.and_eq_true] at hfields
      have hval : py.reread value field.type = value := by
        rcases hfields.1 with hnone | hinst
        · rw [eq_none_of_isNone hnone.1, reread_none]
        · exact reread_of_isExact value (hexact field List.mem_cons_self) hinst
      rw [Python.rereadFields, hval, rereadFields_of_isExact values
        (fun other hother ↦ hexact other (List.mem_cons_of_mem _ hother)) hfields.2]

end

end Exact

/-! ## Constructors run again -/

namespace Python

variable (py : Python) {fields : List Field} {values out : List Obj} {name : String} {field : Field}

def exactAt (fields : List Field) (name : String) : Bool :=
  (fields.find? fun field ↦ decide (field.name = name)).any (·.type.isExact)

theorem getAttribute_exact {name : String} (hfields : Obj.areFields values fields = true)
    (hexact : exactAt fields name = true) :
    getAttribute fields (py.rereadFields values fields) name = getAttribute fields values name := by
  obtain ⟨field, hfind, hexact⟩ := Option.any_eq_true _ _ |>.1 hexact
  obtain ⟨value, hval, hinst⟩ := exists_getAttribute hfields hfind
  rw [getAttribute_rereadFields py hfind, hval, Option.map_some]
  rw [Bool.or_eq_true, Bool.and_eq_true] at hinst
  rcases hinst with hnone | hinst
  · rw [eq_none_of_isNone hnone.1, reread_none]
  · rw [reread_of_isExact py value hexact hinst]

variable {value : Obj} {cls : RecordClass}

theorem getAttribute_fixed
    (hfind : fields.find? (fun field ↦ decide (field.name = name)) = some field)
    (hval : getAttribute fields values name = some value)
    (hfixed : py.reread value field.type = value) :
    getAttribute fields (py.rereadFields values fields) name = some value := by
  rw [getAttribute_rereadFields py hfind, hval, Option.map_some, hfixed]

theorem number_reread_int (hinst : value.isInstance .int = true) :
    (py.reread value .int).number = value.number := by
  cases Obj.typed_of_isInstance hinst with
  | leaf hleaf =>
    cases hleaf with
    | boolAsInt value => cases value <;> simp [reread, rereadLeaf, Obj.number]
    | int value => rfl

theorem checkRequest_rereadFields
    (hfields : Obj.areFields values RecordClass.requestFields = true) :
    checkRequest (py.rereadFields values RecordClass.requestFields) = checkRequest values := by
  have hfind : RecordClass.requestFields.find?
      (fun field ↦ decide (field.name = "disclosed_quantity")) =
        some ⟨"disclosed_quantity", .int, false⟩ := rfl
  obtain ⟨disclosed, hdisclosed, hinst⟩ := exists_getAttribute hfields hfind
  rw [Bool.and_false] at hinst
  rw [checkRequest, checkRequest, py.getAttribute_exact hfields rfl,
    py.getAttribute_exact hfields rfl, getAttribute_rereadFields py hfind, hdisclosed,
    Option.map_some, Option.bind_some, Option.bind_some, py.number_reread_int hinst]

theorem checkBracket_rereadFields
    (hfields : Obj.areFields values RecordClass.requestFields = true) :
    checkBracket (py.rereadFields values RecordClass.requestFields) = checkBracket values := by
  rw [checkBracket, checkBracket, py.checkRequest_rereadFields hfields,
    py.getAttribute_exact hfields rfl, py.getAttribute_exact hfields rfl,
    py.getAttribute_exact hfields rfl,
    py.getAttribute_exact hfields rfl]

theorem checkDepth_rereadFields (hfields : Obj.areFields values RecordClass.depth.fields = true) :
    checkDepth (py.rereadFields values RecordClass.depth.fields) = checkDepth values := by
  rw [checkDepth, checkDepth, py.getAttribute_exact hfields rfl, py.getAttribute_exact hfields rfl]

theorem upper_strip_idempotent {text : String} :
    py.upper (strip (py.upper (strip text))) = py.upper (strip text) := by
  rw [py.strip_upper, py.upper_upper]

variable {res : Obj} {arguments : List Obj}

theorem onText_eq_ok {change : String → Except Raised String}
    (hres : onText change value = .ok res) :
    ∃ text new, value.text = some text ∧ change text = .ok new ∧ res = .str new := by
  rw [onText] at hres
  split at hres
  next text htext =>
    obtain ⟨new, hnew, rfl⟩ := except_map_eq_ok hres
    exact ⟨text, new, htext, hnew, rfl⟩
  next => cases hres

theorem checkedRight_again {valid : List String} {msg : String}
    (hres : py.checkedRight valid msg value = .ok res) :
    (∃ text, res = .str text) ∧ py.checkedRight valid msg res = .ok res := by
  obtain ⟨text, new, -, hnew, rfl⟩ := onText_eq_ok hres
  refine ⟨⟨new, rfl⟩, ?_⟩
  split at hnew
  next hvalid =>
    cases hnew
    simp only [checkedRight, onText, Obj.text, upper_strip_idempotent, if_pos hvalid]
    rfl
  next => cases hnew

theorem checkedStrike_again (hres : py.checkedStrike value = .ok res) :
    (res = .none ∨ ∃ num, res = .decimal num) ∧ py.checkedStrike res = .ok res := by
  have hdecimal : ∀ value, py.toDecimal value = .ok res →
      ∃ num, res = .decimal num := by
    intro value hval
    rw [toDecimal] at hval
    split at hval <;> cases hval
    exact ⟨_, rfl⟩
  have hkind : res = .none ∨ ∃ num, res = .decimal num := by
    unfold checkedStrike at hres
    split at hres
    · cases hres
      exact .inl rfl
    · cases hres
      exact .inr ⟨_, rfl⟩
    · exact .inr (hdecimal _ hres)
  refine ⟨hkind, ?_⟩
  rcases hkind with rfl | ⟨num, rfl⟩ <;> rfl

theorem optionalRight_again (hres : py.optionalRight value = .ok res) :
    (res = .none ∨ ∃ text, res = .str text) ∧ py.optionalRight res = .ok res := by
  unfold optionalRight at hres
  split at hres
  · cases hres
    exact ⟨.inl rfl, rfl⟩
  · obtain ⟨⟨text, rfl⟩, hagain⟩ := py.checkedRight_again hres
    exact ⟨.inr ⟨text, rfl⟩, hagain⟩

theorem setAttribute_rereadFields {change : Obj → Except Raised Obj}
    (hfields : Obj.areFields values fields = true)
    (hfind : fields.find? (fun field ↦ decide (field.name = name)) = some field)
    (hagain : ∀ value, getAttribute fields values name = some value →
      py.reread value field.type = value ∧ change value = .ok value) :
    setAttribute name change fields (py.rereadFields values fields) =
      .ok (py.rereadFields values fields) := by
  obtain ⟨old, hold, -⟩ := exists_getAttribute hfields hfind
  obtain ⟨hfixed, hchg⟩ := hagain old hold
  refine setAttribute_eq_self fun value hval ↦ ?_
  rw [getAttribute_rereadFields py hfind, hold, Option.map_some, hfixed, Option.some_inj] at hval
  rw [← hval, hchg]

theorem initInstrumentId_rereadFields
    (hfields : Obj.areFields values RecordClass.instrumentId.fields = true)
    (hmade : py.initInstrumentId arguments = .ok values) :
    py.initInstrumentId (py.rereadFields values RecordClass.instrumentId.fields) =
      .ok (py.rereadFields values RecordClass.instrumentId.fields) := by
  obtain ⟨third, hthird, hright⟩ := except_bind_eq_ok hmade
  obtain ⟨second, hsnd, hstrike⟩ := except_bind_eq_ok hthird
  obtain ⟨first, hexch, hbase⟩ := except_bind_eq_ok hsnd
  have hagain := fun name field change ↦ @setAttribute_rereadFields py _ values name field
    change hfields
  have hkeepExchange := hagain "exchange" _ py.checkedExchange rfl (by
    intro value hval
    rw [getAttribute_setAttribute_of_ne hright (by decide),
      getAttribute_setAttribute_of_ne hstrike (by decide),
      getAttribute_setAttribute_of_ne hbase (by decide)] at hval
    obtain ⟨old, -, hold⟩ := of_setAttribute hexch hval
    -- An exchange is checked as a right is, with other valid texts.
    obtain ⟨⟨text, rfl⟩, hsame⟩ := py.checkedRight_again hold
    exact ⟨rfl, hsame⟩)
  have hkeepUnderlying := hagain "underlying" _
    (onText fun text ↦ .ok (py.normalizeSymbol text false)) rfl (by
    intro value hval
    rw [getAttribute_setAttribute_of_ne hright (by decide),
      getAttribute_setAttribute_of_ne hstrike (by decide)] at hval
    obtain ⟨old, -, hold⟩ := of_setAttribute hbase hval
    obtain ⟨text, new, -, hnew, rfl⟩ := onText_eq_ok hold
    cases hnew
    refine ⟨rfl, ?_⟩
    simp only [onText, Obj.text, normalizeSymbol, Bool.false_eq_true, if_false,
      upper_strip_idempotent]
    rfl)
  have hkeepStrike := hagain "strike" _ py.checkedStrike rfl (by
    intro value hval
    rw [getAttribute_setAttribute_of_ne hright (by decide)] at hval
    obtain ⟨old, -, hold⟩ := of_setAttribute hstrike hval
    obtain ⟨rfl | ⟨num, rfl⟩, hsame⟩ := py.checkedStrike_again hold
    · exact ⟨rfl, hsame⟩
    · exact ⟨rfl, hsame⟩)
  have hkeepRight := hagain "right" _ py.optionalRight rfl (by
    intro value hval
    obtain ⟨old, -, hold⟩ := of_setAttribute hright hval
    obtain ⟨rfl | ⟨text, rfl⟩, hsame⟩ := py.optionalRight_again hold
    · exact ⟨rfl, hsame⟩
    · exact ⟨rfl, hsame⟩)
  simp [initInstrumentId, hkeepExchange, hkeepUnderlying, hkeepStrike, hkeepRight, Except.bind]

theorem setAttribute_symbol (hnd : (fields.map Field.name).Nodup)
    (htext : ∀ value, getAttribute fields values "symbol" = some value →
      ∃ text, value.text = some text) :
    setAttribute "symbol" (onText fun text ↦ .ok (py.normalizeSymbol text true)) fields values =
      .ok (py.settle fields values) := by
  induction fields generalizing values with
  | nil => rfl
  | cons first rest ih =>
    cases values with
    | nil => rfl
    | cons value values =>
      rw [List.map_cons, List.nodup_cons] at hnd
      rw [setAttribute, settle, settleField]
      by_cases hname : first.name = "symbol"
      · obtain ⟨text, hval⟩ := htext value (by rw [getAttribute, if_pos hname])
        have hrest : ∀ field ∈ rest, field.name ≠ "symbol" := by
          intro field hfield heq
          exact hnd.1 (hname ▸ heq ▸ List.mem_map_of_mem hfield)
        rw [if_pos hname, if_pos hname, onText, hval, settle_eq_self py hrest]
        rfl
      · rw [if_neg hname, if_neg hname, ih hnd.2 fun value hval ↦ htext value ?_]
        · rfl
        · rw [getAttribute, if_neg hname, hval]

theorem exists_text_reread (hinst : value.isInstance .str = true) :
    ∃ text, (py.reread value .str).text = some text := by
  cases Obj.typed_of_isInstance hinst with
  | leaf hleaf =>
    cases hleaf with
    | str value | enumAsStr cls value => exact ⟨value, rfl⟩

variable (hfields : Obj.areFields values cls.fields = true)

include hfields in
theorem initInstrument_rereadFields
    (hfind : cls.fields.find? (fun field ↦ decide (field.name = "symbol")) =
      some ⟨"symbol", .str, false⟩) :
    py.initInstrument cls (py.rereadFields values cls.fields) =
      .ok (py.settle cls.fields (py.rereadFields values cls.fields)) := by
  refine py.setAttribute_symbol cls.fieldNames_nodup fun value hval ↦ ?_
  obtain ⟨old, hold, hinst⟩ := exists_getAttribute hfields hfind
  rw [Bool.and_false] at hinst
  rw [getAttribute_rereadFields py hfind, hold, Option.map_some, Option.some_inj] at hval
  rw [← hval]
  exact py.exists_text_reread hinst

theorem initOption_rereadFields (hfields : Obj.areFields values RecordClass.option.fields = true)
    (hmade : py.initOption arguments = .ok values) :
    py.initOption (py.rereadFields values RecordClass.option.fields) =
      .ok (py.settle RecordClass.option.fields
        (py.rereadFields values RecordClass.option.fields)) := by
  obtain ⟨second, hsnd, htype⟩ := except_bind_eq_ok hmade
  obtain ⟨first, -, hright⟩ := except_bind_eq_ok hsnd
  split at htype
  next right hval =>
    obtain ⟨old, -, hold⟩ := of_setAttribute hright hval
    obtain ⟨⟨text, rfl⟩, hsame⟩ := py.checkedRight_again hold
    have hkind : getAttribute RecordClass.option.fields values "option_type" = some (.str text) := by
      obtain ⟨kind, hkind, -⟩ := @exists_getAttribute _ _ "option_type" _ hfields rfl
      obtain ⟨-, -, heq⟩ := of_setAttribute htype hkind
      cases heq
      exact hkind
    rw [← getAttribute_setAttribute_of_ne htype (by decide)] at hval
    have hrereadRight := py.getAttribute_fixed rfl hval rfl
    have hrereadKind := py.getAttribute_fixed rfl hkind rfl
    -- Both fields are texts, and the symbol is another field.
    have hsettle := py.initInstrument_rereadFields hfields rfl
    generalize py.settle RecordClass.option.fields _ = settled at hsettle ⊢
    rw [← getAttribute_setAttribute_of_ne hsettle (by decide)] at hrereadRight hrereadKind
    have hkeepRight : setAttribute "right" (py.checkedRight ["CE", "PE"]
        "Invalid option right: ") RecordClass.option.fields settled = .ok settled :=
      setAttribute_eq_self fun value hval ↦ by
        rw [hrereadRight, Option.some_inj] at hval
        rw [← hval, hsame]
    have hkeepKind : setAttribute "option_type" (fun _ ↦ .ok (.str text)) RecordClass.option.fields
        settled = .ok settled :=
      setAttribute_eq_self fun value hval ↦ by
        rw [hrereadKind, Option.some_inj] at hval
        rw [← hval]
    simp [initOption, hsettle, hkeepRight, hrereadRight, hkeepKind, Except.bind]
  next => cases htype

theorem of_check {Result : Type} {check : Except Raised Result} {self : List Obj}
    (hmade : (check.map fun _ ↦ self) = .ok values) :
    self = values ∧ ∀ other : List Obj, (check.map fun _ ↦ other) = .ok other := by
  cases check with
  | error err => cases hmade
  | ok res =>
    cases hmade
    exact ⟨rfl, fun _ ↦ rfl⟩

include hfields in
theorem checkedAmount_rereadFields {name : String} (hexact : exactAt cls.fields name = true) :
    checkedAmount cls name (py.rereadFields values cls.fields) = checkedAmount cls name values := by
  rw [checkedAmount, checkedAmount, py.getAttribute_exact hfields hexact]

include hfields in
theorem postInit_rereadFields (hmade : py.postInit cls arguments = .ok values) :
    py.postInit cls (py.rereadFields values cls.fields) =
      .ok (py.settle cls.fields (py.rereadFields values cls.fields)) := by
  cases cls with
  | instrument | equity | index | future | currency | commodity =>
      exact py.initInstrument_rereadFields hfields rfl
  | option => exact py.initOption_rereadFields hfields hmade
  | instrumentId =>
    rw [settle_eq_self py (by decide)]
    exact py.initInstrumentId_rereadFields hfields hmade
  | price =>
    rw [settle_eq_self py (by decide)]
    obtain ⟨value, hval, hmade⟩ := except_bind_eq_ok hmade
    simp only [postInit, initPrice]
    split at hmade
    next => cases hmade
    next hnn =>
      cases hmade
      rw [py.checkedAmount_rereadFields hfields rfl, hval]
      exact if_neg hnn
  | quantity | money =>
    obtain ⟨rfl, hchk⟩ := of_check hmade
    rw [settle_eq_self py (by decide), postInit, py.checkedAmount_rereadFields hfields rfl, hchk]
  | depth =>
    obtain ⟨rfl, hchk⟩ := of_check hmade
    rw [settle_eq_self py (by decide), postInit, py.checkDepth_rereadFields hfields, hchk]
  | orderRequest =>
    obtain ⟨rfl, hchk⟩ := of_check hmade
    have hsame := py.checkRequest_rereadFields hfields
    rw [settle_eq_self py (by decide), postInit]
    exact hsame ▸ hchk _
  | bracketOrderRequest =>
    obtain ⟨rfl, hchk⟩ := of_check hmade
    have hsame := py.checkBracket_rereadFields hfields
    rw [settle_eq_self py (by decide), postInit]
    exact hsame ▸ hchk _
  | _ =>
    rw [settle_eq_self py (by decide)]
    rfl

end Python

end Tradex.Domain
