import SigrokDecode.Loader.Decoders

/-!
# The registry of plugins

`srd_c_decoder_load` and `srd_c_decoder_unload` keep a second list beside `pd_list`: what has come
of every file that was tried.
-/

namespace SigrokDecode

inductive SrdCDllStatus
  | loaded
  | versionMismatch
  | entryMissing
  | loadFailed
  | unloaded
  deriving DecidableEq

/-- `struct srd_c_dll_entry`, without the time. -/
structure SrdCDllEntry where
  filePath : String
  handle : Option Nat
  apiVersion : Int
  status : SrdCDllStatus
  decoderId : Option String
  cDec : Option SrdCDecoder
  /-- History: the decoder that was registered along with the entry. -/
  decoder : Option Nat

/-- What the dynamic linker finds: no library, or one with a handle, the number that its version
function returns, if it has one, and what its entry function returns. -/
inductive Plugin
  | missing
  | library (handle : Nat) (version : Option Int) (entry : Option (Option SrdCDecoder))

/-- Both lists, and the handles that have been opened and not closed again, as often as that. -/
structure RegistryState where
  loader : LoaderState
  entries : List SrdCDllEntry
  opened : List Nat
  /-- History: the path and the return code, when the last call was a load. -/
  answer : Option (String × LoaderCode)

def srdCDecoderApiVersion : Int := 4

def srdCDecoderApiMinVersion : Int := 4

def srdCDecoderCheckVersion (version : Int) : Bool :=
  version = srdCDecoderApiVersion ||
    (srdCDecoderApiMinVersion ≤ version && version < srdCDecoderApiVersion)

namespace RegistryState

def findByPath (s : RegistryState) (filePath : String) : Option SrdCDllEntry :=
  s.entries.find? fun entry => entry.filePath = filePath

def findById (s : RegistryState) (decoderId : String) : Option SrdCDllEntry :=
  s.entries.find? fun entry => entry.decoderId = some decoderId

def add (s : RegistryState) (entry : SrdCDllEntry) : RegistryState :=
  match s.findByPath entry.filePath with
  | some _ => s
  | none => { s with entries := s.entries ++ [entry] }

def remove (s : RegistryState) (decoderId : String) : RegistryState :=
  { s with entries := s.entries.eraseP fun entry => entry.decoderId = some decoderId }

def failedEntry (filePath : String) (apiVersion : Int) (status : SrdCDllStatus) : SrdCDllEntry where
  filePath := filePath
  handle := none
  apiVersion := apiVersion
  status := status
  decoderId := none
  cDec := none
  decoder := none

/-- `srd_c_decoder_load_single` behind a successful `dlopen`; what is opened and closed again
leaves no trace. The return code of the registration is dropped. -/
def enter (s : RegistryState) (fullPath : String) (handle : Nat) (version : Option Int) :
    Option (Option SrdCDecoder) → RegistryState × LoaderCode
  | none => (s.add (failedEntry fullPath 0 .entryMissing), .err)
  | some result =>
      let dllVersion := version.getD 0
      if srdCDecoderCheckVersion dllVersion then
        match result with
        | none => (s, .err)
        | some dec =>
            let (loader, code) := s.loader.srdCDecoderRegister dec
            let s := { s with loader, opened := handle :: s.opened }
            (s.add
              { filePath := fullPath, handle := some handle, apiVersion := dllVersion,
                status := .loaded, decoderId := dec.id, cDec := some dec,
                decoder := if code = .ok then some (loader.next - 1) else none }, .ok)
      else
        (s.add (failedEntry fullPath dllVersion .versionMismatch), .err)

def loadSingle (s : RegistryState) (fullPath : String) (plugin : Plugin) :
    RegistryState × LoaderCode :=
  match s.findByPath fullPath with
  | some _ => (s, .ok)
  | none =>
      match plugin with
      | .missing => (s.add (failedEntry fullPath 0 .loadFailed), .err)
      | .library handle version entry => s.enter fullPath handle version entry

def isAbsolute (path : String) : Bool :=
  path.toList.head? = some '/'

def srdCDecoderLoad (s : RegistryState) (dllPath : Option String) (plugin : Plugin) :
    RegistryState :=
  match dllPath with
  | none => { s with answer := none }
  | some path =>
      if isAbsolute path then
        let (s, code) := s.loadSingle path plugin
        { s with answer := some (path, code) }
      else
        { s with answer := some (path, .errArg) }

/-- `inUse` is the outcome of the search for active instances. -/
def srdCDecoderUnload (s : RegistryState) (decoderId : Option String) (inUse : Bool) :
    RegistryState × LoaderCode :=
  let s := { s with answer := none }
  match decoderId with
  | none => (s, .errArg)
  | some decoderId =>
      match s.findById decoderId with
      | none => (s, .errArg)
      | some entry =>
          match entry.status, entry.handle with
          | .loaded, some handle =>
              if inUse then
                (s, .errArg)
              else
                let s :=
                  { s with
                    loader := s.loader.removeCDecoder decoderId
                    opened := s.opened.erase handle }
                (s.remove decoderId, .ok)
          | _, _ => (s, .errArg)

def srdDecoderUnload (s : RegistryState) (address : Nat) : RegistryState :=
  { s with loader := s.loader.srdDecoderUnload address, answer := none }

end RegistryState

end SigrokDecode
