import Mathlib.Data.List.Perm.Basic
import SigrokDecode.Loader.Registry

/-!
# The registry against the list of decoders

Which calls keep the two lists together.
-/

set_option linter.dupNamespace false

namespace SigrokDecode

open Foundation List

section Lists

variable {α : Type}

variable {chosen : α → Bool} {items : List α}

theorem eraseP_congr {other : α → Bool}
    (agree : ∀ a ∈ items, chosen a = other a) : items.eraseP chosen = items.eraseP other := by
  induction items with
  | nil =>
      rfl
  | cons item items ih =>
      rw [eraseP_cons, eraseP_cons, agree item mem_cons_self,
        ih fun a member => agree a (mem_cons_of_mem _ member)]

/-- What is taken out of a list is taken out of the part that it belongs to. -/
theorem filter_eraseP {kept : α → Bool} (inside : ∀ a ∈ items, chosen a = true → kept a = true) :
    (items.eraseP chosen).filter kept = (items.filter kept).eraseP chosen := by
  rw [eraseP_filter]
  congr 1
  refine eraseP_congr fun a member => ?_
  cases here : chosen a with
  | false => rfl
  | true => exact (inside a member here).symm

theorem filter_eraseP_of_outside {kept : α → Bool}
    (outside : ∀ a ∈ items, chosen a = true → ¬kept a = true) :
    (items.eraseP chosen).filter kept = items.filter kept := by
  rcases exists_or_eq_self_of_eraseP chosen items with
    same | ⟨a, before, after, -, here, split, rest⟩
  · rw [same]
  · have removed : ¬kept a = true :=
      outside a (split ▸ mem_append_right _ mem_cons_self) here
    rw [rest, split, filter_append, filter_append, filter_cons_of_neg removed]

theorem perm_cons_eraseP {item : α}
    (found : items.find? chosen = some item) : items.Perm (item :: items.eraseP chosen) := by
  obtain ⟨here, before, after, rfl, others⟩ := find?_eq_some_iff_append.mp found
  have passed : ∀ a ∈ before, ¬chosen a = true := fun a member => by
    simpa using others a member
  rw [eraseP_append_right _ passed, eraseP_cons_of_pos here]
  exact perm_middle

end Lists

namespace RegistryState

def Live (s : RegistryState) (entry : SrdCDllEntry) : Prop :=
  (∃ d ∈ s.loader.pdList, d.isCDecoder = true ∧ entry.decoder = some d.address) ∧
    ∃ handle ∈ s.opened, entry.handle = some handle

/-- An entry is marked as loaded exactly when its decoder is, and a load has been answered with
success exactly when the decoder of the file is loaded then. -/
structure Consistent (s : RegistryState) : Prop where
  entries : ∀ entry ∈ s.entries, entry.status = .loaded ↔ s.Live entry
  answered : ∀ path code, s.answer = some (path, code) →
    (code = .ok ↔ ∃ entry ∈ s.entries, entry.filePath = path ∧ s.Live entry)

def isLoaded (entry : SrdCDllEntry) : Bool :=
  entry.status = .loaded

def cDecoders (s : RegistryState) : List (Option Nat × Option String) :=
  (s.loader.pdList.filter SrdDecoder.isCDecoder).map fun d => (some d.address, some d.id)

/-- The entries that are marked as loaded, in the same way. -/
def loadedEntries (s : RegistryState) : List (Option Nat × Option String) :=
  (s.entries.filter isLoaded).map fun entry => (entry.decoder, entry.decoderId)

/-- Both lists have the plugins in the order in which they came. -/
structure Aligned (s : RegistryState) : Prop where
  aligned : s.cDecoders = s.loadedEntries
  failed : ∀ entry ∈ s.entries, entry.status ≠ .loaded →
    entry.decoderId = none ∧ entry.decoder = none
  handles : ((s.entries.filter isLoaded).map SrdCDllEntry.handle).Perm (s.opened.map some)
  paths : (s.entries.map SrdCDllEntry.filePath).Nodup
  absolute : ∀ entry ∈ s.entries, isAbsolute entry.filePath = true
  addresses : (s.loader.pdList.map SrdDecoder.address).Nodup
  fresh : ∀ d ∈ s.loader.pdList, d.address < s.loader.next

def Answered (s : RegistryState) : Prop :=
  ∀ path code, s.answer = some (path, code) →
    (code = .ok ↔ ∃ entry ∈ s.entries, entry.filePath = path ∧ entry.status = .loaded)

structure Sound (s : RegistryState) : Prop where
  aligned : s.Aligned
  answered : s.Answered

variable {s : RegistryState}

variable {entry : SrdCDllEntry} {path : String} {status : SrdCDllStatus} {address : Nat}

theorem Aligned.live_iff (aligned : s.Aligned)
    (member : entry ∈ s.entries) : s.Live entry ↔ entry.status = .loaded := by
  constructor
  · rintro ⟨⟨d, -, -, same⟩, -⟩
    by_contra other
    rw [(aligned.failed entry member other).2] at same
    exact nomatch same
  · intro loaded
    have kept : entry ∈ s.entries.filter isLoaded := mem_filter.mpr ⟨member, decide_eq_true loaded⟩
    constructor
    · have paired : (entry.decoder, entry.decoderId) ∈ s.cDecoders := by
        rw [aligned.aligned]
        exact mem_map_of_mem kept
      obtain ⟨d, inside, same⟩ := mem_map.mp paired
      obtain ⟨stored, plugin⟩ := mem_filter.mp inside
      exact ⟨d, stored, plugin, (congrArg Prod.fst same).symm⟩
    · have held : entry.handle ∈ s.opened.map some :=
        aligned.handles.mem_iff.mp (mem_map_of_mem kept)
      obtain ⟨handle, isOpen, same⟩ := mem_map.mp held
      exact ⟨handle, isOpen, same.symm⟩

theorem Sound.consistent (sound : s.Sound) : s.Consistent where
  entries _ member := (sound.aligned.live_iff member).symm
  answered path code same := by
    rw [sound.answered path code same]
    constructor
    · rintro ⟨entry, member, here, loaded⟩
      exact ⟨entry, member, here, (sound.aligned.live_iff member).mpr loaded⟩
    · rintro ⟨entry, member, here, live⟩
      exact ⟨entry, member, here, (sound.aligned.live_iff member).mp live⟩

/-! ## What a load does -/

theorem findByPath_eq_none :
    s.findByPath path = none ↔ ∀ entry ∈ s.entries, entry.filePath ≠ path := by
  simp [findByPath]

theorem add_of_fresh (new : s.findByPath entry.filePath = none) :
    s.add entry = { s with entries := s.entries ++ [entry] } := by
  unfold add
  rw [new]

theorem Aligned.append_paths (aligned : s.Aligned) (new : s.findByPath entry.filePath = none) :
    ((s.entries ++ [entry]).map SrdCDllEntry.filePath).Nodup := by
  rw [map_append, map_cons, map_nil]
  refine nodup_append.mpr ⟨aligned.paths, nodup_singleton _, ?_⟩
  rintro path member other single rfl
  obtain ⟨earlier, stored, same⟩ := mem_map.mp member
  rw [mem_singleton] at single
  exact findByPath_eq_none.mp new earlier stored (same.trans single)

theorem Aligned.append_absolute (aligned : s.Aligned)
    (absolute : isAbsolute entry.filePath = true) :
    ∀ item ∈ s.entries ++ [entry], isAbsolute item.filePath = true := by
  intro item member
  rcases mem_append.mp member with earlier | last
  · exact aligned.absolute item earlier
  · rw [mem_singleton.mp last]
    exact absolute

variable {d : SrdDecoder} {plugin : Plugin}

theorem Aligned.append_addresses (aligned : s.Aligned) (place : d.address = s.loader.next) :
    ((s.loader.pdList ++ [d]).map SrdDecoder.address).Nodup := by
  rw [map_append]
  refine nodup_append.mpr ⟨aligned.addresses, nodup_singleton _, ?_⟩
  rintro address member other single rfl
  obtain ⟨earlier, stored, same⟩ := mem_map.mp member
  obtain rfl := mem_singleton.mp single
  have below : earlier.address < s.loader.next := aligned.fresh earlier stored
  rw [same, place] at below
  exact absurd below (Nat.lt_irrefl _)

theorem Aligned.append_fresh (aligned : s.Aligned) (place : d.address = s.loader.next) :
    ∀ item ∈ s.loader.pdList ++ [d], item.address < s.loader.next + 1 := by
  intro item member
  rcases mem_append.mp member with earlier | last
  · exact Nat.lt_succ_of_lt (aligned.fresh item earlier)
  · rw [mem_singleton.mp last, place]
    exact Nat.lt_succ_self _

theorem isLoaded_failedEntry {version : Int}
    (other : status ≠ .loaded) : ¬isLoaded (failedEntry path version status) = true := by
  intro loaded
  exact other (of_decide_eq_true loaded)

theorem Aligned.add_failed (aligned : s.Aligned) (absolute : isAbsolute path = true)
    (new : s.findByPath path = none) (version : Int)
    (other : status ≠ .loaded) : (s.add (failedEntry path version status)).Aligned := by
  rw [add_of_fresh new]
  have same : (s.entries ++ [failedEntry path version status]).filter isLoaded =
      s.entries.filter isLoaded := by
    rw [filter_append, filter_cons_of_neg (isLoaded_failedEntry other), filter_nil, List.append_nil]
  constructor
  · unfold cDecoders loadedEntries
    rw [same]
    exact aligned.aligned
  · intro entry member unloaded
    rcases mem_append.mp member with earlier | last
    · exact aligned.failed entry earlier unloaded
    · rw [mem_singleton.mp last]
      exact ⟨rfl, rfl⟩
  · rw [same]
    exact aligned.handles
  · exact aligned.append_paths new
  · exact aligned.append_absolute absolute
  · exact aligned.addresses
  · exact aligned.fresh

def loadedEntry (s : RegistryState) (path : String) (handle : Nat) (version : Int)
    (dec : SrdCDecoder) (id : String) : SrdCDllEntry where
  filePath := path
  handle := some handle
  apiVersion := version
  status := .loaded
  decoderId := some id
  cDec := some dec
  decoder := some s.loader.next

theorem Aligned.add_loaded (aligned : s.Aligned) (absolute : isAbsolute path = true)
    (new : s.findByPath path = none) (handle : Nat) (version : Int) (dec : SrdCDecoder)
    (id : String) :
    ({ loader := s.loader.appendDecoder (dec.decoder id s.loader.next)
       entries := s.entries ++ [s.loadedEntry path handle version dec id]
       opened := handle :: s.opened
       answer := s.answer } : RegistryState).Aligned := by
  have kept : (s.entries ++ [s.loadedEntry path handle version dec id]).filter isLoaded =
      s.entries.filter isLoaded ++ [s.loadedEntry path handle version dec id] := by
    rw [filter_append]
    rfl
  constructor
  · unfold cDecoders loadedEntries
    rw [kept, map_append]
    refine Eq.trans ?_ (congrArg (· ++ [(some s.loader.next, some id)]) aligned.aligned)
    unfold cDecoders LoaderState.appendDecoder
    rw [filter_append, map_append]
    rfl
  · intro entry member unloaded
    rcases mem_append.mp member with earlier | last
    · exact aligned.failed entry earlier unloaded
    · rw [mem_singleton.mp last] at unloaded
      exact absurd rfl unloaded
  · rw [kept, map_append]
    refine perm_append_comm.trans ?_
    exact aligned.handles.cons (some handle)
  · exact aligned.append_paths new
  · exact aligned.append_absolute absolute
  · exact aligned.append_addresses rfl
  · exact aligned.append_fresh rfl

theorem Aligned.same_of_path (aligned : s.Aligned) {entry other : SrdCDllEntry}
    (member : entry ∈ s.entries) (stored : other ∈ s.entries)
    (same : entry.filePath = other.filePath) : entry = other :=
  inj_on_of_nodup_map aligned.paths member stored same

/-! One equation for each outcome of a plugin. -/

theorem loadSingle_known (known : s.findByPath path = some entry) (plugin : Plugin) :
    s.loadSingle path plugin = (s, .ok) := by
  unfold loadSingle
  rw [known]

theorem loadSingle_missing (new : s.findByPath path = none) :
    s.loadSingle path .missing = (s.add (failedEntry path 0 .loadFailed), .err) := by
  unfold loadSingle
  rw [new]

theorem loadSingle_library (new : s.findByPath path = none) (handle : Nat)
    (version : Option Int) (entry : Option (Option SrdCDecoder)) :
    s.loadSingle path (.library handle version entry) = s.enter path handle version entry := by
  unfold loadSingle
  rw [new]

variable {version : Option Int}

theorem enter_incompatible (incompatible : ¬srdCDecoderCheckVersion (version.getD 0) = true)
    (path : String) (handle : Nat) (result : Option SrdCDecoder) :
    s.enter path handle version (some result) =
      (s.add (failedEntry path (version.getD 0) .versionMismatch), .err) :=
  if_neg incompatible

section

variable (compatible : srdCDecoderCheckVersion (version.getD 0) = true)
include compatible

theorem enter_null
    (path : String) (handle : Nat) : s.enter path handle version (some none) = (s, .err) :=
  if_pos compatible

theorem enter_named (new : s.findByPath path = none) (handle : Nat) {dec : SrdCDecoder}
    {id : String} (identified : dec.id = some id) :
    s.enter path handle version (some (some dec)) =
      ({ loader := s.loader.appendDecoder (dec.decoder id s.loader.next)
         entries := s.entries ++ [s.loadedEntry path handle (version.getD 0) dec id]
         opened := handle :: s.opened
         answer := s.answer }, .ok) := by
  refine (if_pos compatible).trans ?_
  rw [identified]
  exact congrArg (·, LoaderCode.ok) (add_of_fresh (by exact new))

theorem enter_nameless (new : s.findByPath path = none) (handle : Nat) {dec : SrdCDecoder}
    (nameless : dec.id = none) :
    s.enter path handle version (some (some dec)) =
      ({ s with
         entries := s.entries ++
           [{ filePath := path, handle := some handle, apiVersion := version.getD 0,
              status := .loaded, decoderId := none, cDec := some dec, decoder := none }]
         opened := handle :: s.opened }, .ok) := by
  refine (if_pos compatible).trans ?_
  rw [nameless]
  exact congrArg (·, LoaderCode.ok) (add_of_fresh (by exact new))

end

def Nameless (plugin : Plugin) : Prop :=
  ∃ handle version dec, plugin = .library handle version (some (some dec)) ∧
    srdCDecoderCheckVersion (version.getD 0) = true ∧ dec.id = none

/-- What `srd_c_decoder_load_single` should leave behind. -/
def Settled (path : String) (outcome : RegistryState × LoaderCode) : Prop :=
  outcome.1.Aligned ∧ (outcome.2 = .ok ↔
    ∃ entry ∈ outcome.1.entries, entry.filePath = path ∧ entry.status = .loaded)

theorem Aligned.settled_failed (aligned : s.Aligned)
    (absolute : isAbsolute path = true) (new : s.findByPath path = none) (version : Int)
    (other : status ≠ .loaded) :
    Settled path (s.add (failedEntry path version status), .err) := by
  refine ⟨aligned.add_failed absolute new version other, iff_of_false nofun ?_⟩
  rw [add_of_fresh new]
  rintro ⟨entry, member, here, loaded⟩
  rcases mem_append.mp member with earlier | last
  · exact findByPath_eq_none.mp new entry earlier here
  · rw [mem_singleton.mp last] at loaded
    exact other loaded

theorem Aligned.settled_new (aligned : s.Aligned)
    (absolute : isAbsolute path = true) (new : s.findByPath path = none)
    (named : ¬Nameless plugin) : Settled path (s.loadSingle path plugin) := by
  cases plugin with
  | missing =>
      rw [loadSingle_missing new]
      exact aligned.settled_failed absolute new 0 nofun
  | library handle version found =>
      rw [loadSingle_library new]
      cases found with
      | none => exact aligned.settled_failed absolute new 0 nofun
      | some result =>
          by_cases compatible : srdCDecoderCheckVersion (version.getD 0) = true
          · cases result with
            | none =>
                rw [enter_null compatible]
                refine ⟨aligned, iff_of_false nofun ?_⟩
                rintro ⟨entry, member, here, -⟩
                exact findByPath_eq_none.mp new entry member here
            | some dec =>
                cases identified : dec.id with
                | none => exact absurd ⟨handle, version, dec, rfl, compatible, identified⟩ named
                | some id =>
                    rw [enter_named compatible new handle identified]
                    refine ⟨aligned.add_loaded absolute new handle _ dec id, iff_of_true rfl ?_⟩
                    exact ⟨_, mem_append_right _ mem_cons_self, rfl, rfl⟩
          · rw [enter_incompatible compatible]
            exact aligned.settled_failed absolute new _ nofun

theorem python_of_decoder {m : PyModule}
    (loaded : m.decoder address = some d) : d.address = address ∧ d.isCDecoder = false := by
  dsimp only [PyModule.decoder, guard] at loaded
  simp only [Option.bind_eq_bind, Option.bind_eq_some_iff, Option.pure_def,
    Option.some.injEq] at loaded
  obtain ⟨-, -, id, -, inputs, -, outputs, -, tags, -, options, -, channels, -, optChannels, -,
    annotationRows, -, -, -, rfl⟩ := loaded
  exact ⟨rfl, rfl⟩

theorem Aligned.python (aligned : s.Aligned) (moduleName : String) (m : PyModule) : ({ s with
       loader := (s.loader.srdDecoderLoad moduleName m).1
       answer := none } : RegistryState).Aligned := by
  rcases s.loader.srdDecoderLoad_cases moduleName m with
    ⟨modules, same⟩ | ⟨modules, d, loaded, appended⟩
  · rw [same]
    exact { aligned with }
  · obtain ⟨place, python⟩ := python_of_decoder loaded
    rw [appended]
    constructor
    · refine Eq.trans ?_ aligned.aligned
      refine congrArg (List.map _) ?_
      change (s.loader.pdList ++ [d]).filter SrdDecoder.isCDecoder = _
      rw [filter_append, filter_cons_of_neg (by simp [python]), filter_nil,
        List.append_nil]
    · exact aligned.failed
    · exact aligned.handles
    · exact aligned.paths
    · exact aligned.absolute
    · exact aligned.append_addresses place
    · exact aligned.append_fresh place

theorem Aligned.generic (aligned : s.Aligned)
    (python : ∀ d ∈ s.loader.pdList, d.address = address → ¬d.isCDecoder = true) :
    (s.srdDecoderUnload address).Aligned where
  aligned := by
    refine Eq.trans ?_ aligned.aligned
    exact congrArg (List.map _) (filter_eraseP_of_outside fun d member here =>
      python d member (of_decide_eq_true here))
  failed := aligned.failed
  handles := aligned.handles
  paths := aligned.paths
  absolute := aligned.absolute
  addresses := aligned.addresses.sublist (eraseP_sublist.map _)
  fresh d member := aligned.fresh d (mem_of_mem_eraseP member)

theorem Aligned.not_mem_unloaded (aligned : s.Aligned) :
    ∀ d ∈ (s.srdDecoderUnload address).loader.pdList, d.address ≠ address := by
  intro d left same
  have isPresent : ((s.loader.pdList.find? fun d => d.address = address).isSome) = true :=
    find?_isSome.mpr ⟨d, mem_of_mem_eraseP left, decide_eq_true same⟩
  obtain ⟨first, found⟩ := Option.isSome_iff_exists.mp isPresent
  have here : first.address = address := of_decide_eq_true (find?_some found :)
  have apart := ((perm_cons_eraseP found).map SrdDecoder.address).nodup_iff.mp aligned.addresses
  refine (nodup_cons.mp apart).1 ?_
  rw [here]
  exact mem_map.mpr ⟨d, left, same⟩

theorem cDecoders_removeCDecoder (loader : LoaderState) (decoderId : String) :
    ((loader.removeCDecoder decoderId).pdList.filter SrdDecoder.isCDecoder).map
        (fun d => (some d.address, some d.id)) =
      ((loader.pdList.filter SrdDecoder.isCDecoder).map
        (fun d => (some d.address, some d.id))).eraseP fun pair => pair.2 = some decoderId := by
  rw [eraseP_map]
  refine congrArg (List.map _) ((filter_eraseP fun d _ here => ?_).trans ?_)
  · exact (of_decide_eq_true here).1
  · refine eraseP_congr fun d member => decide_eq_decide.mpr ?_
    have plugin : d.isCDecoder = true := (mem_filter.mp member).2
    simp [plugin]

theorem Aligned.loadedEntries_remove (aligned : s.Aligned) (decoderId : String) :
    (s.remove decoderId).loadedEntries =
      s.loadedEntries.eraseP fun pair => pair.2 = some decoderId := by
  unfold loadedEntries
  rw [eraseP_map]
  refine congrArg (List.map _) (filter_eraseP fun entry member here => ?_)
  refine decide_eq_true (Classical.byContradiction fun other => ?_)
  have identified : entry.decoderId = some decoderId := of_decide_eq_true here
  rw [(aligned.failed entry member other).1] at identified
  exact nomatch identified

theorem Aligned.unloaded (aligned : s.Aligned) {decoderId : String}
    {handle : Nat} (found : s.findById decoderId = some entry) (loaded : entry.status = .loaded)
    (held : entry.handle = some handle) :
    ({ loader := s.loader.removeCDecoder decoderId
       entries := s.entries.eraseP fun entry => entry.decoderId = some decoderId
       opened := s.opened.erase handle
       answer := none } : RegistryState).Aligned where
  aligned := by
    refine (cDecoders_removeCDecoder s.loader decoderId).trans ?_
    refine Eq.trans ?_ (aligned.loadedEntries_remove decoderId).symm
    exact congrArg (List.eraseP _) aligned.aligned
  failed other member := aligned.failed other (mem_of_mem_eraseP member)
  handles := by
    have apart := (perm_cons_eraseP found).filter isLoaded
    have kept : isLoaded entry = true := decide_eq_true loaded
    rw [filter_cons_of_pos kept] at apart
    have before := (apart.map SrdCDllEntry.handle).symm.trans aligned.handles
    rw [map_cons, held] at before
    have isOpen : handle ∈ s.opened := by
      have member := before.mem_iff.mp mem_cons_self
      simpa using member
    have after := (perm_cons_erase isOpen).map some
    exact (before.trans after).cons_inv
  paths := aligned.paths.sublist (eraseP_sublist.map _)
  absolute other member := aligned.absolute other (mem_of_mem_eraseP member)
  addresses := aligned.addresses.sublist (eraseP_sublist.map _)
  fresh d member := aligned.fresh d (mem_of_mem_eraseP member)

theorem Aligned.clear (aligned : s.Aligned) (answer : Option (String × LoaderCode)) :
    ({ s with answer } : RegistryState).Aligned :=
  { aligned with }

theorem sound_of_aligned (aligned : s.Aligned) (quiet : s.answer = none) : s.Sound where
  aligned := aligned
  answered path code same := by
    rw [quiet] at same
    exact nomatch same

theorem Aligned.srdCDecoderUnload (aligned : s.Aligned) (decoderId : Option String)
    (inUse : Bool) : (s.srdCDecoderUnload decoderId inUse).1.Sound := by
  have unchanged : ({ s with answer := none } : RegistryState).Sound :=
    sound_of_aligned (aligned.clear none) rfl
  unfold RegistryState.srdCDecoderUnload
  dsimp only
  split
  · exact unchanged
  · split
    · exact unchanged
    · rename_i found
      split
      · split
        · exact unchanged
        · rename_i loaded held _
          exact sound_of_aligned (aligned.unloaded found loaded held) rfl
      · exact unchanged

/-- Calls of the program. What a file holds when it is opened and whether instances are active
comes from outside. -/
inductive RegistryOperation
  | pythonLoad (moduleName : String) (m : PyModule)
  | load (dllPath : Option String) (plugin : Plugin)
  | unload (decoderId : Option String) (inUse : Bool)
  | decoderUnload (address : Nat)

def apply (s : RegistryState) : RegistryOperation → RegistryState
  | .pythonLoad moduleName m =>
      { s with loader := (s.loader.srdDecoderLoad moduleName m).1, answer := none }
  | .load dllPath plugin => s.srdCDecoderLoad dllPath plugin
  | .unload decoderId inUse => (s.srdCDecoderUnload decoderId inUse).1
  | .decoderUnload address => s.srdDecoderUnload address

/-- A file that is known was loaded, a new one has an identifier if it has a decoder, and the
generic unload is for decoders in Python. -/
def Keeps (s : RegistryState) : RegistryOperation → Prop
  | .pythonLoad _ _ => True
  | .load none _ => True
  | .load (some path) plugin =>
      isAbsolute path = true →
        (∀ entry ∈ s.entries, entry.filePath = path → entry.status = .loaded) ∧
          ((∀ entry ∈ s.entries, entry.filePath ≠ path) → ¬Nameless plugin)
  | .unload _ _ => True
  | .decoderUnload address =>
      ∀ d ∈ s.loader.pdList, d.address = address → ¬d.isCDecoder = true

theorem srdCDecoderLoad_absolute (absolute : isAbsolute path = true) (plugin : Plugin) :
    s.srdCDecoderLoad (some path) plugin =
      { (s.loadSingle path plugin).1 with answer := some (path, (s.loadSingle path plugin).2) } :=
  if_pos absolute

theorem Settled.sound {outcome : RegistryState × LoaderCode} (settled : Settled path outcome) :
    ({ outcome.1 with answer := some (path, outcome.2) } : RegistryState).Sound where
  aligned := settled.1.clear _
  answered other code same := by
    obtain ⟨rfl, rfl⟩ := Prod.mk.inj (Option.some.inj same)
    exact settled.2

theorem Sound.load (sound : s.Sound) {dllPath : Option String}
    (keeps : s.Keeps (.load dllPath plugin)) : (s.srdCDecoderLoad dllPath plugin).Sound := by
  cases dllPath with
  | none => exact sound_of_aligned (sound.aligned.clear none) rfl
  | some path =>
      by_cases absolute : isAbsolute path = true
      · obtain ⟨known, named⟩ := keeps absolute
        rw [srdCDecoderLoad_absolute absolute]
        refine Settled.sound ?_
        cases found : s.findByPath path with
        | none =>
            exact sound.aligned.settled_new absolute found (named (findByPath_eq_none.mp found))
        | some entry =>
            have member : entry ∈ s.entries := mem_of_find?_eq_some found
            have here : entry.filePath = path := of_decide_eq_true (find?_some found :)
            rw [loadSingle_known found]
            exact ⟨sound.aligned, iff_of_true rfl ⟨entry, member, here, known entry member here⟩⟩
      · have refused : s.srdCDecoderLoad (some path) plugin =
            { s with answer := some (path, .errArg) } := if_neg absolute
        rw [refused]
        have settled : Settled path (s, .errArg) := by
          refine ⟨sound.aligned, iff_of_false nofun ?_⟩
          rintro ⟨entry, member, rfl, -⟩
          exact absolute (sound.aligned.absolute entry member)
        exact settled.sound

theorem Sound.load_breaks (sound : s.Sound) {dllPath : Option String}
    (breaks : ¬s.Keeps (.load dllPath plugin)) :
    ¬(s.srdCDecoderLoad dllPath plugin).Consistent := by
  intro consistent
  cases dllPath with
  | none => exact breaks True.intro
  | some path =>
      refine breaks fun absolute => ?_
      rw [srdCDecoderLoad_absolute absolute] at consistent
      constructor
      · intro entry member here
        have found : ∃ known, s.findByPath path = some known := by
          refine Option.isSome_iff_exists.mp (find?_isSome.mpr ⟨entry, member, ?_⟩)
          exact decide_eq_true here
        obtain ⟨known, found⟩ := found
        rw [loadSingle_known found] at consistent
        obtain ⟨other, stored, there, live⟩ := (consistent.answered path .ok rfl).mp rfl
        obtain rfl := sound.aligned.same_of_path member stored (here.trans there.symm)
        exact (consistent.entries entry stored).mpr live
      · rintro fresh ⟨handle, version, dec, rfl, compatible, nameless⟩
        have new : s.findByPath path = none := findByPath_eq_none.mpr fresh
        rw [loadSingle_library new, enter_nameless compatible new handle nameless] at consistent
        have last := (consistent.entries _ (mem_append_right _ mem_cons_self)).mp rfl
        obtain ⟨⟨d, -, -, same⟩, -⟩ := last
        exact nomatch same

theorem Sound.generic_breaks (sound : s.Sound)
    (breaks : ¬s.Keeps (.decoderUnload address)) : ¬(s.srdDecoderUnload address).Consistent := by
  intro consistent
  refine breaks fun d member here plugin => ?_
  have paired : (some d.address, some d.id) ∈ s.loadedEntries := by
    rw [← sound.aligned.aligned]
    exact mem_map.mpr ⟨d, mem_filter.mpr ⟨member, plugin⟩, rfl⟩
  obtain ⟨entry, inside, same⟩ := mem_map.mp paired
  obtain ⟨stored, loaded⟩ := mem_filter.mp inside
  obtain ⟨⟨other, left, -, owner⟩, -⟩ :=
    (consistent.entries entry stored).mp (of_decide_eq_true loaded)
  have twin : other.address = d.address := by
    have equal : entry.decoder = some d.address := congrArg Prod.fst same
    rw [owner] at equal
    exact Option.some.inj equal
  exact sound.aligned.not_mem_unloaded other left (twin.trans here)

theorem consistent_separates : Separates apply Sound Consistent Keeps where
  holds sound := sound.consistent
  keeps {s op} sound keeps := by
    cases op with
    | pythonLoad moduleName m => exact sound_of_aligned (sound.aligned.python moduleName m) rfl
    | load dllPath plugin => exact sound.load keeps
    | unload decoderId inUse => exact sound.aligned.srdCDecoderUnload decoderId inUse
    | decoderUnload address => exact sound_of_aligned (sound.aligned.generic keeps) rfl
  breaks {s op} sound breaks := by
    cases op with
    | pythonLoad moduleName m => exact absurd True.intro breaks
    | load dllPath plugin => exact sound.load_breaks breaks
    | unload decoderId inUse => exact absurd True.intro breaks
    | decoderUnload address => exact sound.generic_breaks breaks

/-- Nothing is loaded and no file has been tried. -/
def empty (modules : List String) (next : Nat) : RegistryState where
  loader := { modules, pdList := [], next }
  entries := []
  opened := []
  answer := none

theorem sound_empty (modules : List String) (next : Nat) : (empty modules next).Sound := by
  refine sound_of_aligned ⟨rfl, ?_, Perm.nil, nodup_nil, ?_, nodup_nil, ?_⟩ rfl
  all_goals exact fun _ member => absurd member not_mem_nil

theorem registry_consistent_iff (modules : List String) (next : Nat)
    (ops : List RegistryOperation) :
    HoldsThroughout apply Consistent (empty modules next) ops ↔
      EveryStep apply Keeps (empty modules next) ops :=
  consistent_separates.throughout_iff (sound_empty modules next) ops

def missingLibrary : RegistryOperation :=
  .load (some "/lib/uart_c.so") .missing

/-- The second attempt to load a library that cannot be opened is answered with success. -/
theorem missingLibrary_twice :
    ¬∀ modules next ops, HoldsThroughout apply Consistent (empty modules next) ops := by
  intro always
  obtain ⟨-, -, consistent⟩ := always [] 0 [missingLibrary, missingLibrary]
  obtain ⟨entry, member, -, ⟨d, left, -⟩, -⟩ :=
    (consistent.answered "/lib/uart_c.so" .ok (by decide)).mp rfl
  have unloaded : (((empty [] 0).apply missingLibrary).apply missingLibrary).loader.pdList = [] :=
    by decide
  rw [unloaded] at left
  exact not_mem_nil left

end RegistryState

end SigrokDecode
