import Tradex.Domain.InstrumentId
import Tradex.Foundation.Dict

/-!
# The instrument registry

A registry maps instruments to provider keys and back. Its four mutators have different rules for
conflicts, and a full reload carries over what the fresh registry does not define.
-/

namespace Tradex.Domain

open Tradex.Text

inductive MetaValue where
  | none
  | text (value : String)
  | other (shown : String) (truthy : Bool)
deriving DecidableEq

namespace MetaValue

def truthy : MetaValue → Bool
  | .none => false
  | .text val => val ≠ ""
  | .other _ truthy => truthy

def str : MetaValue → String
  | .none => "None"
  | .text val => val
  | .other shown _ => shown

end MetaValue

abbrev Metadata := Dict String MetaValue

structure InstrumentRegistry where
  byKey : Dict String InstrumentId
  byInstrument : Dict InstrumentKey (InstrumentId × Metadata)
  aliases : Dict String InstrumentId
  keysByInstrument : Dict InstrumentKey (List String)
  primaryByInstrument : Dict InstrumentKey String

def tagByAssetClass : Dict String String :=
  (((((Dict.single "EQUITY" "EQ").set "INDEX" "IDX").set "FUTURE" "FUT").set "OPTION" "OPT").set
    "CURRENCY" "CUR").set "COMMODITY" "COM" |>.set "ETF" "ETF"

namespace InstrumentRegistry

def empty : InstrumentRegistry := ⟨.empty, .empty, .empty, .empty, .empty⟩

/- The conversion of a text to upper case. -/
variable (upper : String → String)

def aliasKey (name : String) : String := upper (strip name)

def tagFromId (instr : InstrumentId) : String :=
  (tagByAssetClass.get instr.assetClass.value).getD "EQ"

def keySuffix (instr : InstrumentId) : List Char :=
  (instr.expiry.elim [] fun expiry ↦ ':' :: expiry.compact) ++
    ((instr.strike.elim [] fun strike ↦ ':' :: strike.chars) ++
      instr.right.elim [] fun right ↦ ':' :: right.value.toList)

def keyOf (instr : InstrumentId) (tag : String) : String :=
  String.ofList (instr.exchange.toList ++ (('_' :: tag.toList ++ ['|']) ++
    (instr.underlying.toList ++ keySuffix instr)))

def defaultKey (instr : InstrumentId) (data : Metadata) : String :=
  keyOf instr ((tagByAssetClass.get (upper ((data.get "asset_class").elim "" MetaValue.str))).getD
    (tagFromId instr))

variable (reg : InstrumentRegistry)

def providerKey (instr : InstrumentId) : Option String :=
  reg.primaryByInstrument.get instr.key

def resolve (name : String) : Option InstrumentId :=
  match reg.byKey.get (strip name) with
  | some instr => some instr
  | none => reg.aliases.get (aliasKey upper name)

abbrev Outcome := Except String Unit × InstrumentRegistry

def collision (key : String) (existing instr : InstrumentId) : String :=
  "instrument key collision: '" ++ key ++ "' maps to both " ++ existing.str ++ " and " ++
    instr.str

def takenBy (key : String) (instr : InstrumentId) : Option InstrumentId :=
  (reg.byKey.get key).filter fun existing ↦ existing.key ≠ instr.key

def mergeMeta (existing data : Metadata) : Metadata :=
  data.entries.foldl
    (fun merged entry ↦
      if entry.1 = "key" ∨ entry.2 = .none ∨ entry.2 = .text "" then merged
      else merged.set entry.1 entry.2)
    existing

def put (key : String) (instr : InstrumentId) (data : Metadata) : Outcome :=
  match reg.takenBy key instr with
  | some existing => (.error (collision key existing instr), reg)
  | none =>
    (.ok (),
      { reg with
        primaryByInstrument :=
          match reg.primaryByInstrument.get instr.key with
          | none => reg.primaryByInstrument.set instr.key key
          | some _ => reg.primaryByInstrument
        byKey := reg.byKey.set key instr
        keysByInstrument := reg.keysByInstrument.set instr.key
          (((reg.keysByInstrument.get instr.key).getD []).insert key)
        byInstrument := reg.byInstrument.set instr.key
          (match reg.byInstrument.get instr.key with
          | none => (instr, data)
          | some (filed, existing) => (filed, mergeMeta existing data)) })

def dropKeys (instr : InstrumentId) (kept : String) (keys : List String)
    (byKey : Dict String InstrumentId) : Dict String InstrumentId :=
  keys.foldl
    (fun byKey old ↦
      if old ≠ kept ∧ (byKey.get old).map InstrumentId.key = some instr.key then
        byKey.erase old
      else byKey)
    byKey

def replace (key : String) (instr : InstrumentId) (data : Metadata) : Outcome :=
  match reg.takenBy key instr with
  | some existing => (.error (collision key existing instr), reg)
  | none =>
    (.ok (),
      { reg with
        byKey := (dropKeys instr key
          ((reg.keysByInstrument.get instr.key).getD []) reg.byKey).set
            key instr
        primaryByInstrument := reg.primaryByInstrument.set instr.key key
        keysByInstrument := reg.keysByInstrument.set instr.key [key]
        byInstrument := reg.byInstrument.set instr.key
          (((reg.byInstrument.get instr.key).elim instr Prod.fst), data) })

def requestedKey (instr : InstrumentId) (data : Metadata) : String :=
  match data.get "key" with
  | some val => if val.truthy then val.str else defaultKey upper instr data
  | none => defaultKey upper instr data

def register (instr : InstrumentId) (data : Metadata) : Outcome :=
  reg.put (requestedKey upper instr data) instr data

def registerAuthoritative (instr : InstrumentId)
    (key : String) (data : Option Metadata) : Outcome :=
  reg.replace key instr (data.getD (Dict.single "key" (.text key)))

def addAlias (name : String) (instr : InstrumentId) : Outcome :=
  (.ok (), { reg with aliases := reg.aliases.set (aliasKey upper name) instr })

def setDefaults (instr : InstrumentId) (keys : List String)
    (byKey : Dict String InstrumentId) : Dict String InstrumentId :=
  keys.foldl
    (fun byKey key ↦
      match byKey.get key with
      | some _ => byKey
      | none => byKey.set key instr)
    byKey

def carryOver (cur fresh : InstrumentRegistry)
    (entry : InstrumentKey × (InstrumentId × Metadata)) : InstrumentRegistry :=
  match fresh.byInstrument.get entry.1 with
  | some _ => fresh
  | none =>
    { fresh with
      byInstrument := fresh.byInstrument.set entry.1 entry.2
      primaryByInstrument :=
        match cur.primaryByInstrument.get entry.1 with
        | some key => fresh.primaryByInstrument.set entry.1 key
        | none => fresh.primaryByInstrument
      keysByInstrument :=
        match cur.keysByInstrument.get entry.1 with
        | some keys => fresh.keysByInstrument.set entry.1 keys
        | none => fresh.keysByInstrument
      byKey :=
        match cur.keysByInstrument.get entry.1 with
        | some keys => setDefaults entry.2.1 keys fresh.byKey
        | none => fresh.byKey }

def carryAlias (source : InstrumentRegistry) (aliases : Dict String InstrumentId)
    (entry : String × InstrumentId) : Dict String InstrumentId :=
  match source.byInstrument.get entry.2.key, aliases.get entry.1 with
  | none, none => aliases.set entry.1 entry.2
  | _, _ => aliases

def replaceAll (reg other : InstrumentRegistry) : Outcome :=
  let fresh := reg.byInstrument.entries.foldl reg.carryOver other
  (.ok (),
    { fresh with
      aliases := reg.aliases.entries.foldl (carryAlias other) other.aliases })

inductive Call where
  | register (instrument : InstrumentId) (data : Metadata)
  | registerAuthoritative (instrument : InstrumentId) (key : String) (data : Option Metadata)
  | addAlias (name : String) (instrument : InstrumentId)
  | replaceAll (other : InstrumentRegistry)

def call : Call → Outcome
  | .register instr data => reg.register upper instr data
  | .registerAuthoritative instr key data => reg.registerAuthoritative instr key data
  | .addAlias name instr => reg.addAlias upper name instr
  | .replaceAll other => reg.replaceAll other

end InstrumentRegistry

end Tradex.Domain
