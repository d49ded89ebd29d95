import Mathlib.Data.List.Nodup
import SigrokDecode.Foundation.Runs

/-!
# The list of decoders

`srd_decoder_load` and `srd_c_decoder_register` build the same structure, the first from the
attributes of a Python class and the second from the tables of a plugin; `pd_list` holds them.
-/

set_option linter.dupNamespace false

namespace SigrokDecode

/-- A pointer to a string may be `NULL`. -/
structure SrdChannel where
  id : Option String
  name : Option String
  desc : Option String
  order : Int
  type : Int
  idn : Option String
  deriving DecidableEq

structure SrdDecoderOption where
  id : Option String
  desc : Option String
  idn : Option String
  deriving DecidableEq

structure SrdAnnotationRow where
  id : String
  desc : String
  annClasses : List Nat
  deriving DecidableEq

/-- `address` is where the structure lies. -/
structure SrdDecoder where
  address : Nat
  id : String
  isCDecoder : Bool
  inputs : List String
  outputs : List String
  tags : List String
  channels : List SrdChannel
  optChannels : List SrdChannel
  options : List SrdDecoderOption
  annotationRows : List SrdAnnotationRow
  deriving DecidableEq

def srdChannelCommon : Int := -1

/-- What the loaders change: the modules that the interpreter has imported, `pd_list`, and the
place of the next structure. -/
structure LoaderState where
  modules : List String
  pdList : List SrdDecoder
  next : Nat

inductive LoaderCode
  | ok
  | err
  | errArg
  | errPython
  deriving DecidableEq

inductive PyAttribute (Entry : Type)
  | absent
  | notTuple
  | tuple (entries : List Entry)

/-- An entry of `channels`; a string that is missing or of another type is `none`. -/
inductive PyChannel
  | notDict
  | dict (id name desc idn : Option String) (type : Int)

/-- One round of the loop of `get_channels`. -/
def readChannel (order : Nat) : PyChannel → Option SrdChannel
  | .notDict => none
  | .dict (some id) (some name) (some desc) idn type =>
      some
        { id := some id, name := some name, desc := some desc, order,
          type := if type < 0 then srdChannelCommon else type, idn }
  | .dict _ _ _ _ _ => none

/-- The loop runs from the last entry to the first and puts each one in front. -/
def readChannels (offset : Nat) : List PyChannel → Option (List SrdChannel)
  | [] => some []
  | entry :: rest =>
      match readChannel offset entry, readChannels (offset + 1) rest with
      | some channel, some channels => some (channel :: channels)
      | _, _ => none

def getChannels (attr : PyAttribute PyChannel) (offset : Nat) : Option (List SrdChannel) :=
  match attr with
  | .absent => some []
  | .notTuple => none
  | .tuple entries => readChannels offset entries

/-- What the interpreter says about a module. The strings and the lists of strings are missing
where the attribute is or has another type, the lists of options and rows where `get_options` and
`get_annotation_rows` fail. -/
structure PyModule where
  imports : Bool
  hasDecoder : Bool
  isSubclass : Bool
  apiVersion : Int
  hasReset : Bool
  hasStart : Bool
  hasDecode : Bool
  id : Option String
  name : Option String
  longname : Option String
  desc : Option String
  license : Option String
  inputs : Option (List String)
  outputs : Option (List String)
  tags : Option (List String)
  options : Option (List SrdDecoderOption)
  channels : PyAttribute PyChannel
  optionalChannels : PyAttribute PyChannel
  annotations : Bool
  annotationRows : Option (List SrdAnnotationRow)
  binary : Bool

/-- `contains_duplicates` and its kin: two entries with the same identifier. -/
def containsDuplicates {α : Type} [DecidableEq α] : List α → Bool
  | [] => false
  | id :: ids => id ∈ ids || containsDuplicates ids

/-- `contains_duplicate_channel_ids_cross` -/
def containsDuplicatesCross {α : Type} [DecidableEq α] (ids others : List α) : Bool :=
  ids.any fun id => id ∈ others

/-- "Validate decoder metadata for duplicates". -/
def SrdDecoder.validated (d : SrdDecoder) : Bool :=
  !containsDuplicates d.inputs && !containsDuplicates d.outputs && !containsDuplicates d.tags &&
    !containsDuplicates (d.channels.map SrdChannel.id) &&
    !containsDuplicates (d.optChannels.map SrdChannel.id) &&
    !containsDuplicatesCross (d.channels.map SrdChannel.id) (d.optChannels.map SrdChannel.id) &&
    !containsDuplicates (d.options.map SrdDecoderOption.id) &&
    !containsDuplicates (d.annotationRows.map SrdAnnotationRow.id)

/-- The class is one that `srd_decoder_load` accepts. -/
def PyModule.accepted (m : PyModule) : Bool :=
  m.imports && m.hasDecoder && m.isSubclass && m.apiVersion = 3 && m.hasReset && m.hasStart &&
    m.hasDecode && m.name.isSome && m.longname.isSome && m.desc.isSome && m.license.isSome &&
    m.annotations && m.binary

/-- The decoder that `srd_decoder_load` fills in, unless one of its checks fails. -/
def PyModule.decoder (m : PyModule) (address : Nat) : Option SrdDecoder := do
  guard m.accepted
  let id ← m.id
  let inputs ← m.inputs
  let outputs ← m.outputs
  let tags ← m.tags
  let options ← m.options
  let channels ← getChannels m.channels 0
  let optChannels ← getChannels m.optionalChannels channels.length
  let annotationRows ← m.annotationRows
  let d : SrdDecoder :=
    { address, id, isCDecoder := false, inputs, outputs, tags, channels, optChannels, options,
      annotationRows }
  guard d.validated
  pure d

namespace LoaderState

def appendDecoder (s : LoaderState) (d : SrdDecoder) : LoaderState :=
  { s with pdList := s.pdList ++ [d], next := s.next + 1 }

def srdDecoderLoad (s : LoaderState) (moduleName : String) (m : PyModule) :
    LoaderState × LoaderCode :=
  if moduleName ∈ s.modules then
    (s, .ok)
  else
    let s := if m.imports then { s with modules := moduleName :: s.modules } else s
    match m.decoder s.next with
    | none => (s, .errPython)
    | some d => (s.appendDecoder d, .ok)

theorem srdDecoderLoad_cases (s : LoaderState) (moduleName : String) (m : PyModule) :
    (∃ modules, (s.srdDecoderLoad moduleName m).1 = { s with modules }) ∨
      ∃ modules d, m.decoder s.next = some d ∧ (s.srdDecoderLoad moduleName m).1 =
          { modules, pdList := s.pdList ++ [d], next := s.next + 1 } := by
  unfold srdDecoderLoad
  split
  · exact .inl ⟨s.modules, rfl⟩
  · cases loaded : m.decoder s.next with
    | none =>
        refine .inl ?_
        split
        · exact ⟨moduleName :: s.modules, by simp only [loaded]⟩
        · exact ⟨s.modules, by simp only [loaded]⟩
    | some d =>
        refine .inr ?_
        split
        · exact ⟨moduleName :: s.modules, d, rfl, by simp only [loaded, appendDecoder]⟩
        · exact ⟨s.modules, d, rfl, by simp only [loaded, appendDecoder]⟩

end LoaderState

structure CAnnotationRow where
  id : Option String
  desc : Option String
  annClasses : List Nat

/-- `struct srd_c_decoder`; an array that is missing or has no entries is empty. -/
structure SrdCDecoder where
  id : Option String
  inputs : List String
  outputs : List String
  tags : List String
  channels : List SrdChannel
  optionalChannels : List SrdChannel
  options : List SrdDecoderOption
  annotationRows : List CAnnotationRow

def CAnnotationRow.copy (row : CAnnotationRow) : SrdAnnotationRow where
  id := row.id.getD ""
  desc := row.desc.getD ""
  annClasses := row.annClasses

/-- What is copied out of the tables of a plugin. -/
def SrdCDecoder.decoder (dec : SrdCDecoder) (id : String) (address : Nat) : SrdDecoder where
  address := address
  id := id
  isCDecoder := true
  inputs := dec.inputs
  outputs := dec.outputs
  tags := dec.tags
  channels := dec.channels
  optChannels := dec.optionalChannels
  options := dec.options
  annotationRows := dec.annotationRows.map CAnnotationRow.copy

namespace LoaderState

def srdCDecoderRegister (s : LoaderState) (dec : SrdCDecoder) : LoaderState × LoaderCode :=
  match dec.id with
  | none => (s, .errArg)
  | some id => (s.appendDecoder (dec.decoder id s.next), .ok)

/-- The list after `srd_decoder_unload`. -/
def srdDecoderUnload (s : LoaderState) (address : Nat) : LoaderState :=
  { s with pdList := s.pdList.eraseP fun d => d.address = address }

/-- The list after an unload by `srd_c_decoder_unload`. -/
def removeCDecoder (s : LoaderState) (decoderId : String) : LoaderState :=
  { s with pdList := s.pdList.eraseP fun d => d.isCDecoder ∧ d.id = decoderId }

end LoaderState

namespace SrdDecoder

/-- The channels in the order of `dec_channelmap`. -/
def allChannels (d : SrdDecoder) : List SrdChannel :=
  d.channels ++ d.optChannels

/-- The search in the required channels and then in the optional ones. -/
def findChannel (d : SrdDecoder) (channelId : String) : Option SrdChannel :=
  match d.channels.find? fun channel => channel.id = some channelId with
  | some channel => some channel
  | none => d.optChannels.find? fun channel => channel.id = some channelId

/-- What comes of the assignments to `new_channelmap`. -/
inductive ChannelMap
  | mapped (channelmap : List Int)
  | refused
  | outOfRange

/-- The loop over the hash table; a value of another type than a number is `none`. -/
def setChannels (d : SrdDecoder) (channelmap : List Int) : List (String × Option Int) → ChannelMap
  | [] => .mapped channelmap
  | (_, none) :: _ => .refused
  | (channelId, some number) :: rest =>
      match d.findChannel channelId with
      | none => .refused
      | some channel =>
          if 0 ≤ channel.order ∧ channel.order < channelmap.length then
            d.setChannels (channelmap.set channel.order.toNat number) rest
          else
            .outOfRange

def newChannelmap (d : SrdDecoder) (newChannels : List (String × Option Int)) : ChannelMap :=
  d.setChannels (List.replicate d.allChannels.length (-1)) newChannels

end SrdDecoder

end SigrokDecode
