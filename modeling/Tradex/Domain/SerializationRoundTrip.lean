import Tradex.Domain.DictionaryReading
import Tradex.Foundation.DecimalText
import Mathlib.Logic.Encodable.Basic

/-!
# Round trips through a dictionary

What is read back equals the object exactly if every time has a zone in which its
offset is certain, no text that serves as an identifier reads as a UUID, no symbol
loses a further suffix, and untyped dictionaries hold only what is written as it is.
-/

namespace Tradex.Domain

open Tradex.Text (strip)

namespace Obj

mutual

def plain : Obj → Bool
  | .none => true
  | .bool _ => true
  | .int _ => true
  | .float _ => true
  | .str _ => true
  | .enum _ _ => true
  | .list items => allPlain items
  | .dict _ vals => allPlain vals
  | _ => false

def allPlain : List Obj → Bool
  | [] => true
  | item :: items => item.plain && allPlain items

end

end Obj

namespace Python

variable (py : Python)

mutual

theorem equals_toDict (val : Obj) {wire : Obj} (hwire : py.toDict val = .ok wire) :
    wire.equals val = val.plain := by
  cases val with
  | tuple items | record cls vals =>
    obtain ⟨out, hout, rfl⟩ := except_map_eq_ok hwire
    rfl
  | list items =>
    obtain ⟨out, hout, rfl⟩ := except_map_eq_ok hwire
    simp [Obj.equals, Obj.plain, equalsAll_toDictAll items hout]
  | dict keys vals =>
    obtain ⟨out, hout, rfl⟩ := except_map_eq_ok hwire
    simp [Obj.equals, Obj.plain, equalsAll_toDictAll vals hout]
  | foreign cls st => cases hwire
  | _ =>
    cases hwire
    simp [Obj.equals, Obj.equalsLeaf, Obj.number, Obj.text, Obj.plain]

theorem equalsAll_toDictAll (items : List Obj) {out : List Obj}
    (hout : py.toDictAll items = .ok out) : Obj.equalsAll out items = Obj.allPlain items := by
  cases items with
  | nil =>
    cases hout
    rfl
  | cons item items =>
    obtain ⟨first, rest, hfst, hrest, rfl⟩ := py.toDictAll_cons hout
    rw [Obj.equalsAll, Obj.allPlain, equals_toDict item hfst, equalsAll_toDictAll items hrest]

end

def stableLeaf : Obj → Annotation → Bool
  | .str val, .uuidOrStr => (py.uuid val).isNone
  | .enum _ val, .uuidOrStr => (py.uuid val).isNone
  | .datetime time, .datetime => time.zone.any fun zone ↦ !zone.ambiguous
  | .datetime _, .date => false
  | _, _ => true

def stableSymbol (field : Field) (val : Obj) : Bool :=
  field.name ≠ "symbol" || val.text.all fun text ↦ py.normalizeSymbol text true = text

mutual

def stable : Obj → Annotation → Bool
  | .record cls vals, _ => stableFirst cls.compared vals cls.fields
  | .tuple items, type =>
    match type with
    | .tupleOf item => stableAll items item
    | .pair first second => stableFirst 2 items [⟨"0", first, false⟩, ⟨"1", second, false⟩]
    | _ => true
  | .dict _ vals, _ => Obj.allPlain vals
  | val, type => py.stableLeaf val type

def stableAll : List Obj → Annotation → Bool
  | [], _ => true
  | item :: items, type => stable item type && stableAll items type

def stableFirst : ℕ → List Obj → List Field → Bool
  | count + 1, val :: vals, field :: fields =>
    py.stableSymbol field val && stable val field.type && stableFirst count vals fields
  | _, _, _ => true

end

theorem equals_withOffset {time : DateTime} :
    time.withOffset.pinned.equals time = time.zone.any fun zone ↦ !zone.ambiguous := by
  obtain ⟨wall, zone⟩ := time
  cases zone with
  | none => rfl
  | some zone =>
    simp only [DateTime.withOffset, DateTime.pinned, DateTime.equals]
    cases zone with
    | fixed offset name | other cls key offset ambiguous => simp [Zone.offset, Zone.ambiguous]

theorem equals_reread_of_leaf {val wire : Obj} {type : Annotation} (hleaf : Leaf val type)
    (hwire : py.toDict val = .ok wire) :
    (py.reread val type).equals val = py.stable val type := by
  cases hleaf with
  | boolAsInt val =>
    cases val <;>
      simp [reread, rereadLeaf, Obj.equals, Obj.equalsLeaf, Obj.number, stable, stableLeaf]
  | strAsId val | enumAsId cls val =>
    simp only [reread, rereadLeaf, uuidOrText, py.str_str, stable, stableLeaf]
    cases py.uuid val with
    | none => simp [Obj.equals, Obj.equalsLeaf, Obj.number, Obj.text]
    | some num => rfl
  | datetime val =>
    simp [reread, rereadLeaf, Obj.equals, Obj.equalsLeaf, equals_withOffset, stable, stableLeaf]
  | datetimeAsDate val => rfl
  | objects keys vals =>
    obtain ⟨out, hout, rfl⟩ := except_map_eq_ok hwire
    simp [reread, hout, Obj.equals, py.equalsAll_toDictAll vals hout, stable]
  | _ =>
    simp [reread, rereadLeaf, Obj.equals, Obj.equalsLeaf, Obj.number, Obj.text, stable, stableLeaf]

theorem equalsAll_eq_equalsFirst {count : ℕ} {left right : List Obj} (hleft : left.length = count)
    (hright : right.length = count) :
    Obj.equalsAll left right = Obj.equalsFirst count left right := by
  induction left generalizing right count with
  | nil =>
    subst hleft
    cases List.length_eq_zero_iff.1 hright
    rfl
  | cons first left ih =>
    subst hleft
    cases right with
    | nil => cases hright
    | cons second right =>
      rw [List.length_cons, Obj.equalsAll, Obj.equalsFirst, ih rfl (Nat.succ.inj hright)]

theorem equals_settleField {field : Field} {val : Obj} (hname : field.name = "symbol")
    (hinst : val.isInstance .str = true) :
    (py.settleField field (py.reread val .str)).equals val =
      (py.stableSymbol field val && py.stable val .str) := by
  cases Obj.typed_of_isInstance hinst with
  | leaf hleaf =>
    cases hleaf with
    | str text | enumAsStr cls text =>
      simp [settleField, stableSymbol, hname, reread, rereadLeaf, Obj.text, Obj.equals,
        Obj.equalsLeaf, Obj.number, stable, stableLeaf]

mutual

theorem equals_reread (val : Obj) {type : Annotation} {wire : Obj}
    (hinst : val.isInstance type = true) (hwire : py.toDict val = .ok wire) :
    (py.reread val type).equals val = py.stable val type := by
  cases Obj.typed_of_isInstance hinst with
  | leaf hleaf => exact py.equals_reread_of_leaf hleaf hwire
  | @record cls base vals hsub hvals =>
    obtain ⟨out, hout, -⟩ := except_map_eq_ok hwire
    simp [reread, Obj.equals, stable,
      equalsFirst_rereadFields vals cls.compared cls.fields_symbol hvals hout]
  | @tupleOf items item hitems =>
    obtain ⟨out, hout, -⟩ := except_map_eq_ok hwire
    simp [reread, Obj.equals, stable, equalsAll_rereadAll items hitems hout]
  | @pair items first second hitems =>
    obtain ⟨out, hout, -⟩ := except_map_eq_ok hwire
    have hlen := length_areFields hitems
    have hfst := equalsFirst_rereadFields items 2 (by simp) hitems hout
    rw [settle_eq_self py (by simp)] at hfst
    simp only [reread, Obj.equals]
    rw [equalsAll_eq_equalsFirst (py.length_rereadFields.trans hlen) hlen]
    exact hfst

theorem equalsAll_rereadAll (items : List Obj) {type : Annotation} {out : List Obj}
    (hinst : Obj.areInstances items type = true) (hout : py.toDictAll items = .ok out) :
    Obj.equalsAll (py.rereadAll items type) items = py.stableAll items type := by
  cases items with
  | nil => rfl
  | cons item items =>
    obtain ⟨first, rest, hfst, hrest, rfl⟩ := py.toDictAll_cons hout
    rw [Obj.areInstances, Bool.and_eq_true] at hinst
    rw [rereadAll, Obj.equalsAll, stableAll, equals_reread item hinst.1 hfst,
      equalsAll_rereadAll items hinst.2 hrest]

theorem equalsFirst_rereadFields (vals : List Obj) (count : ℕ) {fields : List Field}
    {out : List Obj}
    (hsym : ∀ field ∈ fields, field.name = "symbol" →
      field.type = .str ∧ field.optional = false)
    (hflds : Obj.areFields vals fields = true) (hout : py.toDictAll vals = .ok out) :
    Obj.equalsFirst count (py.settle fields (py.rereadFields vals fields)) vals =
      py.stableFirst count vals fields := by
  cases vals with
  | nil =>
    cases fields with
    | nil => cases count <;> rfl
    | cons field fields => cases hflds
  | cons val vals =>
    cases fields with
    | nil => cases hflds
    | cons field fields =>
      cases count with
      | zero => simp [Obj.equalsFirst, stableFirst]
      | succ count =>
        obtain ⟨first, rest, hfst, hrest, rfl⟩ := py.toDictAll_cons hout
        rw [Obj.areFields, Bool.and_eq_true, Bool.or_eq_true, Bool.and_eq_true] at hflds
        have hval : (py.settleField field (py.reread val field.type)).equals val =
            (py.stableSymbol field val && py.stable val field.type) := by
          by_cases hname : field.name = "symbol"
          · obtain ⟨htype, hopt⟩ := hsym field List.mem_cons_self hname
            rw [hopt, htype] at hflds
            rw [htype]
            exact py.equals_settleField hname (hflds.1.resolve_left (by simp))
          · have hother : py.stableSymbol field val = true := by simp [stableSymbol, hname]
            rw [settleField, if_neg hname, hother]
            rcases hflds.1 with hnone | hinst
            · rw [eq_none_of_isNone hnone.1, reread_none]
              simp [Obj.equals, Obj.equalsLeaf, stable, stableLeaf]
            · exact equals_reread val hinst hfst
        rw [rereadFields, settle, Obj.equalsFirst, stableFirst, hval,
          equalsFirst_rereadFields vals count
            (fun other hother ↦ hsym other (List.mem_cons_of_mem _ hother)) hflds.2 hrest]

end

end Python

structure DomainObject (python : Python) where
  cls : RecordClass
  obj : Obj
  isInstance : obj.isInstance (.record cls) = true
  constructed : python.Constructed obj

namespace DomainObject

variable {py : Python} (x : DomainObject py) {wire : Obj}

theorem fromDict_toDict (hwire : py.toDict x.obj = .ok wire) :
    py.fromDict x.cls wire = .ok (py.reread x.obj (.record x.cls)) := by
  obtain ⟨cls, obj, hinst, hmade⟩ := x
  have hread := Python.orRaw_false (py.orRaw_coerce_toDict obj (by rfl) hinst hmade hwire)
  cases Obj.typed_of_isInstance hinst with
  | leaf hleaf => cases hleaf
  | record hsub hvals =>
    obtain ⟨out, -, rfl⟩ := except_map_eq_ok hwire
    exact hread

end DomainObject

/-! ## An interpreter

The texts of times and dates are numbers here. All that counts is that each is read
back by its own format. -/

namespace Ascii

def str : Obj → String
  | .str val => val
  | .enum _ val => val
  | _ => ""

def int : Obj → Except Raised ℤ
  | .int val => .ok val
  | .bool val => .ok (if val then 1 else 0)
  | _ => .error (.typeError none)

def bool : Obj → Bool
  | .bool val => val
  | _ => true

def digits (num : ℕ) : String := String.ofList (Nat.toDigits 10 num)

theorem digits_injective : Function.Injective digits := by
  intro first second heq
  exact Decimal.toDigits_injective (String.ofList_injective heq)

def dateText (day : Date) : String := digits (Encodable.encode (day.year, day.month, day.day))

theorem dateText_injective : Function.Injective dateText := by
  intro first second heq
  have htriple := Encodable.encode_injective (digits_injective heq)
  cases first
  simp_all

def timeText (time : ℤ × Option ℤ) : String :=
  String.ofList ('T' :: (digits (Encodable.encode time)).toList)

theorem timeText_injective : Function.Injective timeText := by
  intro first second heq
  have hdig := List.cons_injective (String.ofList_injective heq)
  exact Encodable.encode_injective (digits_injective (String.toList_injective hdig))

variable (time : DateTime)

def isoformat : String := timeText (time.wall, time.zone.map Zone.offset)

def timeOf (time : ℤ × Option ℤ) : DateTime := ⟨time.1, time.2.map fun offset ↦ .fixed offset none⟩

theorem partialInv_eq_none {Value : Type} {write : Value → String}
    (hinjective : Function.Injective write) {text : String} (htext : ∀ val, write val ≠ text) :
    Function.partialInv write text = none := by
  rw [Option.eq_none_iff_forall_ne_some]
  intro val hval
  exact htext val ((Function.Injective.isPartialInv hinjective val text).1 hval)

theorem dateText_ne_isoformat (day : Date) (time : DateTime) : dateText day ≠ isoformat time := by
  intro heq
  have hchars := String.ofList_injective heq
  have hmark : 'T' ∈ Nat.toDigits 10 (Encodable.encode (day.year, day.month, day.day)) := by
    rw [hchars]
    exact List.mem_cons_self
  exact Decimal.notMem_toDigits (by decide) _ hmark

theorem strip_isoformat : strip (isoformat time) = isoformat time := by
  apply Text.strip_of_stripped
  apply Text.stripped_of_isSolid
  rw [isoformat, timeText, String.toList_ofList, digits, String.toList_ofList, Text.isSolid,
    List.all_eq_true]
  intro c hc
  rw [Bool.not_eq_true']
  rcases List.mem_cons.1 hc with rfl | hdigit
  · decide
  · exact Text.isSpace_eq_false_of_isDigit
      (Nat.isDigit_of_mem_toDigits (by decide) (by decide) hdigit)

noncomputable def strptime (text format : String) : Option DateTime :=
  (Function.partialInv timeText text).bind fun time ↦
    if format = (timeOf time).isoFormat then some (timeOf time) else none

theorem strptime_isoformat (format : String) :
    strptime (isoformat time) format =
      if format = time.isoFormat then some time.withOffset else none := by
  have htime : timeOf (time.wall, time.zone.map Zone.offset) = time.withOffset := by
    rw [timeOf, Option.map_map]
    rfl
  have hfmt : time.withOffset.isoFormat = time.isoFormat := by
    obtain ⟨wall, zone⟩ := time
    cases zone with
    | none => rfl
    | some zone =>
      by_cases hwhole : wall % 1000000 = 0 <;>
        simp [DateTime.isoFormat, DateTime.withOffset, hwhole]
  rw [strptime, isoformat, Function.partialInv_left timeText_injective, Option.bind_some, htime,
    hfmt]

end Ascii

noncomputable def asciiPython : Python where
  str := Ascii.str
  repr := Ascii.str
  typeName := Ascii.str
  int := Ascii.int
  bool := Ascii.bool
  decimal := Function.partialInv Decimal.str
  uuidText := Ascii.digits
  uuid := Function.partialInv Ascii.digits
  dateText := Ascii.dateText
  date := Function.partialInv Ascii.dateText
  isoformat := Ascii.isoformat
  strptime := Ascii.strptime
  fromtimestamp := fun _ ↦ none
  upper := Text.upperAscii
  knownExchanges := EnumClass.exchangeId.members
  now := ⟨0, some utc⟩
  str_str := fun _ ↦ rfl
  str_enum := fun _ _ ↦ rfl
  int_int := fun _ ↦ rfl
  int_bool := fun _ ↦ rfl
  bool_bool := fun _ ↦ rfl
  decimal_str := Function.partialInv_left Decimal.str_injective
  uuid_uuidText := Function.partialInv_left Ascii.digits_injective
  date_dateText := Function.partialInv_left Ascii.dateText_injective
  date_isoformat := fun time ↦ Ascii.partialInv_eq_none Ascii.dateText_injective fun day ↦
    Ascii.dateText_ne_isoformat day time
  strip_isoformat := Ascii.strip_isoformat
  strptime_isoformat := fun time format _ ↦ Ascii.strptime_isoformat time format
  upper_upper := Text.upperAscii_upperAscii
  strip_upper := Text.strip_upperAscii_strip

def sampleId : Obj :=
  .record .instrumentId [.str "NSE", .str "TCS", .none, .none, .none, .enum .assetClass "EQUITY"]

theorem sampleId_constructed : asciiPython.Constructed sampleId := by
  have hexch : asciiPython.upper (strip "NSE") = "NSE" := by decide +kernel
  have hknown : "NSE" ∈ asciiPython.knownExchanges := by decide +kernel
  have hbase : asciiPython.upper (strip "TCS") = "TCS" := by decide +kernel
  refine ⟨⟨[.str "NSE", .str "TCS", .none, .none, .none, .enum .assetClass "EQUITY"], ?_⟩, ?_⟩
  · simp [Python.postInit, Python.initInstrumentId, setAttribute, RecordClass.fields,
      Python.checkedExchange, Python.onText, Obj.text, hexch, hknown, Python.normalizeSymbol,
      hbase, Python.checkedStrike, Python.optionalRight, Except.map, Except.bind]
  · simp [Python.AllConstructed, Python.Constructed]

def sampleEquity (symbol : String) : Obj :=
  .record .equity
    [sampleId, .str symbol, .enum .exchangeId "NSE", .enum .assetClass "EQUITY", .str "INR", .none,
      .none, .none, .none, .none, .none,
      .record .instrumentMeta [.none, .none, .none, .none, .dict [] []]]

theorem sampleEquity_constructed {raw symbol : String}
    (hsym : asciiPython.normalizeSymbol raw true = symbol) :
    asciiPython.Constructed (sampleEquity symbol) := by
  refine ⟨⟨[sampleId, .str raw, .enum .exchangeId "NSE", .enum .assetClass "EQUITY", .str "INR",
    .none, .none, .none, .none, .none, .none,
    .record .instrumentMeta [.none, .none, .none, .none, .dict [] []]], ?_⟩, ?_⟩
  · simp [Python.postInit, Python.initInstrument, setAttribute, RecordClass.fields,
      RecordClass.instrumentFields, Python.onText, Obj.text, hsym, Except.map]
  · refine ⟨sampleId_constructed, ?_⟩
    simp [Python.AllConstructed, Python.Constructed, Python.postInit]

def sampleQuantity (num : Decimal) : Obj := .record .quantity [.decimal num]

def samplePrice : Obj := .record .price [.decimal 100]

theorem samplePrice_constructed : asciiPython.Constructed samplePrice := by
  have hpos : ¬ Decimal.toRat 100 < 0 := by decide +kernel
  exact ⟨⟨[.decimal 100], if_neg hpos⟩, trivial, trivial⟩

def sampleFill (time : DateTime) : DomainObject asciiPython where
  cls := .fill
  obj := .record .fill
    [.record .orderId [.str "o-1"], sampleEquity "TCS", .enum .orderSide "BUY", sampleQuantity 10,
      samplePrice, .datetime time, .none, .none, .none]
  isInstance := by rfl
  constructed := by
    have hsym : asciiPython.normalizeSymbol "TCS" true = "TCS" := by decide +kernel
    exact ⟨⟨_, rfl⟩, ⟨⟨_, rfl⟩, trivial, trivial⟩, sampleEquity_constructed hsym, trivial,
      ⟨⟨[.decimal 10], rfl⟩, trivial, trivial⟩, samplePrice_constructed, trivial, trivial, trivial,
      trivial, trivial⟩

def sampleOrder (correlation : String) : DomainObject asciiPython where
  cls := .order
  obj := .record .order
    [.record .orderId [.str "o-1"], sampleEquity "TCS", .enum .orderSide "BUY",
      .enum .orderType "LIMIT", sampleQuantity 10, samplePrice, .enum .timeInForce "DAY",
      .enum .orderStatus "NEW", .record .correlationId [.str correlation], .none,
      .enum .productType "INTRADAY", .none, sampleQuantity 0, .none, .none, .none, .none, .none]
  isInstance := by rfl
  constructed := by
    have hsym : asciiPython.normalizeSymbol "TCS" true = "TCS" := by decide +kernel
    exact ⟨⟨_, rfl⟩, ⟨⟨_, rfl⟩, trivial, trivial⟩, sampleEquity_constructed hsym, trivial,
      trivial, ⟨⟨[.decimal 10], rfl⟩, trivial, trivial⟩, samplePrice_constructed, trivial, trivial,
      ⟨⟨_, rfl⟩, trivial, trivial⟩, trivial, trivial, trivial,
      ⟨⟨[.decimal 0], rfl⟩, trivial, trivial⟩, trivial, trivial, trivial, trivial, trivial,
      trivial⟩

def suffixedEquity : DomainObject asciiPython where
  cls := .instrument
  obj := sampleEquity "TCS-EQ"
  isInstance := by rfl
  constructed := by
    have hsym : asciiPython.normalizeSymbol "TCS-EQ-EQ" true = "TCS-EQ" := by decide +kernel
    exact sampleEquity_constructed hsym

theorem stable_sampleOrder {correlation : String} :
    asciiPython.stable (sampleOrder correlation).obj (.record .order) =
      (asciiPython.uuid correlation).isNone := by
  have hequity : asciiPython.stable (sampleEquity "TCS") (.record .instrument) = true := by
    decide +kernel
  simp [sampleOrder, Python.stable, Python.stableFirst, RecordClass.compared, RecordClass.fields,
    Python.stableSymbol, Python.stableLeaf, hequity, sampleQuantity, samplePrice]

theorem DomainObject.changed {py : Python} (x : DomainObject py)
    (hwire : ∃ wire, py.toDict x.obj = .ok wire)
    (hunstable : py.stable x.obj (.record x.cls) = false) :
    ∃ wire back, py.toDict x.obj = .ok wire ∧ py.fromDict x.cls wire = .ok back ∧
      back.equals x.obj = false := by
  obtain ⟨wire, hwire⟩ := hwire
  refine ⟨wire, _, hwire, x.fromDict_toDict hwire, ?_⟩
  rw [py.equals_reread x.obj x.isInstance hwire, hunstable]

theorem uuid_manual : asciiPython.uuid "manual-1" = none := by
  refine Ascii.partialInv_eq_none Ascii.digits_injective fun num heq ↦ ?_
  have hmark : 'm' ∈ Nat.toDigits 10 num := by
    have hchars : Nat.toDigits 10 num = "manual-1".toList := by
      rw [← heq, Ascii.digits, String.toList_ofList]
    rw [hchars]
    decide
  exact Decimal.notMem_toDigits (by decide) num hmark

end Tradex.Domain
