import SigrokDecode.Loader.Decoders

/-!
# The identifiers of loaded decoders

Which decoders the list holds after loads, registrations and unloads, and what channel setup does
with their channels.
-/

set_option linter.dupNamespace false

namespace SigrokDecode

open Foundation List

namespace SrdDecoder

/-- Different identifiers, and every channel with its position for its order. -/
structure WellFormed (d : SrdDecoder) : Prop where
  channelIds : (d.allChannels.map SrdChannel.id).Nodup
  optionIds : (d.options.map SrdDecoderOption.id).Nodup
  rowIds : (d.annotationRows.map SrdAnnotationRow.id).Nodup
  orders : ∀ (i : Nat) (channel : SrdChannel), d.allChannels[i]? = some channel →
    channel.order = (i : Int)

/-- Channel setup writes to the entry of the channel that it has found. -/
def Addresses (d : SrdDecoder) : Prop :=
  ∀ channelId channel, d.findChannel channelId = some channel → channel.id = some channelId ∧
      ∃ i : Nat, d.allChannels[i]? = some channel ∧ channel.order = (i : Int)

theorem findChannel_mem {d : SrdDecoder} {channelId : String} {channel : SrdChannel}
    (found : d.findChannel channelId = some channel) :
    channel.id = some channelId ∧ channel ∈ d.allChannels := by
  unfold findChannel at found
  split at found
  next required here =>
    obtain rfl := Option.some.inj found
    have named := find?_some here
    rw [decide_eq_true_eq] at named
    exact ⟨named, mem_append_left _ (mem_of_find?_eq_some here)⟩
  next =>
    have named := find?_some found
    rw [decide_eq_true_eq] at named
    exact ⟨named, mem_append_right _ (mem_of_find?_eq_some found)⟩

theorem WellFormed.addresses {d : SrdDecoder} (wellFormed : d.WellFormed) : d.Addresses := by
  intro channelId channel found
  obtain ⟨named, member⟩ := findChannel_mem found
  obtain ⟨i, here⟩ := mem_iff_getElem?.mp member
  exact ⟨named, i, here, wellFormed.orders i channel here⟩

end SrdDecoder

theorem containsDuplicates_eq_false {α : Type} [DecidableEq α] {ids : List α} :
    containsDuplicates ids = false ↔ ids.Nodup := by
  induction ids with
  | nil =>
      exact iff_of_true rfl nodup_nil
  | cons id ids ih =>
      rw [containsDuplicates, Bool.or_eq_false_iff, decide_eq_false_iff_not, ih, nodup_cons]

theorem containsDuplicatesCross_eq_false {α : Type} [DecidableEq α] {ids others : List α} :
    containsDuplicatesCross ids others = false ↔ ids.Disjoint others := by
  rw [containsDuplicatesCross, any_eq_false]
  constructor
  · intro apart id left right
    exact apart id left (decide_eq_true right)
  · intro disjoint id left right
    exact disjoint left (of_decide_eq_true right)

variable {channels : List SrdChannel}

theorem readChannels_orders {offset : Nat} {entries : List PyChannel} (read : readChannels offset entries = some channels) :
    ∀ (i : Nat) (channel : SrdChannel), channels[i]? = some channel →
      channel.order = ((offset + i : Nat) : Int) := by
  induction entries generalizing offset channels with
  | nil =>
      obtain rfl := Option.some.inj read
      intro i channel here
      exact absurd here (by simp)
  | cons entry rest ih =>
      rw [readChannels] at read
      split at read
      next first others one many =>
        obtain rfl := Option.some.inj read
        intro i channel here
        cases i with
        | zero =>
            obtain rfl := Option.some.inj here
            unfold readChannel at one
            split at one
            · exact nomatch one
            · obtain rfl := Option.some.inj one
              rfl
            · exact nomatch one
        | succ i =>
            rw [ih many i channel here]
            congr 1
            omega
      next =>
        exact nomatch read

theorem getChannels_orders {attr : PyAttribute PyChannel} {offset : Nat} (read : getChannels attr offset = some channels) :
    ∀ (i : Nat) (channel : SrdChannel), channels[i]? = some channel →
      channel.order = ((offset + i : Nat) : Int) := by
  cases attr with
  | absent =>
      obtain rfl := Option.some.inj read
      intro i channel here
      exact absurd here (by simp)
  | notTuple =>
      exact nomatch read
  | tuple entries =>
      exact readChannels_orders read

theorem orders_append {others : List SrdChannel}
    (first : ∀ (i : Nat) (channel : SrdChannel), channels[i]? = some channel →
      channel.order = ((0 + i : Nat) : Int))
    (second : ∀ (i : Nat) (channel : SrdChannel), others[i]? = some channel →
      channel.order = ((channels.length + i : Nat) : Int))
    (i : Nat) (channel : SrdChannel) (here : (channels ++ others)[i]? = some channel) :
    channel.order = (i : Int) := by
  by_cases inside : i < channels.length
  · rw [getElem?_append_left inside] at here
    rw [first i channel here, Nat.zero_add]
  · rw [getElem?_append_right (Nat.le_of_not_lt inside)] at here
    rw [second _ channel here]
    congr 1
    omega

theorem PyModule.decoder_wellFormed {m : PyModule} {address : Nat} {d : SrdDecoder}
    (loaded : m.decoder address = some d) : d.WellFormed := by
  dsimp only [PyModule.decoder, guard] at loaded
  simp only [Option.bind_eq_bind, Option.bind_eq_some_iff, Option.pure_def] at loaded
  obtain ⟨-, -, id, -, inputs, -, outputs, -, tags, -, options, -, channels, required,
    optChannels, optional, rows, -, _, checked, same⟩ := loaded
  obtain rfl := Option.some.inj same
  split at checked
  next validated =>
    simp only [SrdDecoder.validated, Bool.and_eq_true, Bool.not_eq_true',
      containsDuplicates_eq_false, containsDuplicatesCross_eq_false] at validated
    obtain ⟨⟨⟨⟨⟨-, requiredIds⟩, optionalIds⟩, apart⟩, optionIds⟩, rowIds⟩ := validated
    refine ⟨?_, optionIds, rowIds, ?_⟩
    · rw [SrdDecoder.allChannels, map_append]
      exact requiredIds.append optionalIds apart
    · exact orders_append (getChannels_orders required) (getChannels_orders optional)
  next =>
    exact nomatch checked

/-- What the tables of a plugin have to look like. -/
structure SrdCDecoder.InOrder (dec : SrdCDecoder) : Prop where
  channelIds : ((dec.channels ++ dec.optionalChannels).map SrdChannel.id).Nodup
  optionIds : (dec.options.map SrdDecoderOption.id).Nodup
  rowIds : (dec.annotationRows.map fun row => row.id.getD "").Nodup
  orders : ∀ (i : Nat) (channel : SrdChannel),
    (dec.channels ++ dec.optionalChannels)[i]? = some channel → channel.order = (i : Int)

theorem SrdCDecoder.decoder_wellFormed {dec : SrdCDecoder} {id : String} {address : Nat} :
    (dec.decoder id address).WellFormed ↔ dec.InOrder := by
  have rows : (dec.decoder id address).annotationRows.map SrdAnnotationRow.id =
      dec.annotationRows.map fun row => row.id.getD "" := by
    rw [SrdCDecoder.decoder, map_map]
    rfl
  constructor
  · rintro ⟨channelIds, optionIds, rowIds, orders⟩
    rw [rows] at rowIds
    exact ⟨channelIds, optionIds, rowIds, orders⟩
  · rintro ⟨channelIds, optionIds, rowIds, orders⟩
    rw [← rows] at rowIds
    exact ⟨channelIds, optionIds, rowIds, orders⟩

inductive LoaderOperation
  | load (moduleName : String) (m : PyModule)
  | register (dec : SrdCDecoder)
  | unload (address : Nat)
  | unloadC (decoderId : String)

/-- Different decoders have different names, and every one is in order, so that channel setup
finds its way. -/
structure DecodersInOrder (pdList : List SrdDecoder) : Prop where
  ids : (pdList.map SrdDecoder.id).Nodup
  decoders : ∀ d ∈ pdList, d.WellFormed ∧ d.Addresses

theorem decodersInOrder_append {pdList : List SrdDecoder} (inOrder : DecodersInOrder pdList)
    (d : SrdDecoder) :
    DecodersInOrder (pdList ++ [d]) ↔ d.id ∉ pdList.map SrdDecoder.id ∧ d.WellFormed := by
  constructor
  · rintro ⟨ids, decoders⟩
    rw [map_append, nodup_append] at ids
    refine ⟨?_, (decoders d (by simp)).1⟩
    intro member
    exact ids.2.2 d.id member d.id (by simp) rfl
  · rintro ⟨fresh, wellFormed⟩
    refine ⟨?_, ?_⟩
    · rw [map_append, nodup_append]
      refine ⟨inOrder.ids, nodup_singleton _, ?_⟩
      intro id member other here same
      rw [map_singleton, mem_singleton] at here
      exact fresh (here ▸ same ▸ member)
    · intro other member
      rcases mem_append.mp member with old | new
      · exact inOrder.decoders other old
      · rw [mem_singleton.mp new]
        exact ⟨wellFormed, wellFormed.addresses⟩

theorem decodersInOrder_eraseP {pdList : List SrdDecoder} (inOrder : DecodersInOrder pdList)
    (chosen : SrdDecoder → Bool) : DecodersInOrder (pdList.eraseP chosen) where
  ids := inOrder.ids.sublist (eraseP_sublist.map _)
  decoders d member := inOrder.decoders d (mem_of_mem_eraseP member)

namespace LoaderState

def apply (s : LoaderState) : LoaderOperation → LoaderState
  | .load moduleName m => (s.srdDecoderLoad moduleName m).1
  | .register dec => (s.srdCDecoderRegister dec).1
  | .unload address => s.srdDecoderUnload address
  | .unloadC decoderId => s.removeCDecoder decoderId

def InOrder (s : LoaderState) : Prop :=
  DecodersInOrder s.pdList

/-- A load or a registration has to bring a new name, and a plugin tables that are in order. -/
def Admits (s : LoaderState) : LoaderOperation → Prop
  | .load moduleName m => moduleName ∈ s.modules ∨
      ∀ d, m.decoder s.next = some d → d.id ∉ s.pdList.map SrdDecoder.id
  | .register dec => ∀ id, dec.id = some id →
      id ∉ s.pdList.map SrdDecoder.id ∧ dec.InOrder
  | .unload _ => True
  | .unloadC _ => True

variable {s : LoaderState}

theorem inOrder_load (inOrder : s.InOrder) (moduleName : String) (m : PyModule) :
    (s.srdDecoderLoad moduleName m).1.InOrder ↔ s.Admits (.load moduleName m) := by
  by_cases known : moduleName ∈ s.modules
  · rw [srdDecoderLoad, if_pos known]
    exact iff_of_true inOrder (.inl known)
  · cases loaded : m.decoder s.next with
    | none =>
        have kept : (s.srdDecoderLoad moduleName m).1.pdList = s.pdList := by
          rw [srdDecoderLoad, if_neg known]
          split <;> simp only [loaded]
        rw [InOrder, kept]
        refine iff_of_true inOrder (.inr fun d same => ?_)
        rw [loaded] at same
        exact nomatch same
    | some d =>
        have appended : (s.srdDecoderLoad moduleName m).1.pdList = s.pdList ++ [d] := by
          rw [srdDecoderLoad, if_neg known]
          split <;> simp only [loaded, appendDecoder]
        rw [InOrder, appended, decodersInOrder_append inOrder]
        constructor
        · rintro ⟨fresh, -⟩
          refine .inr fun other same => ?_
          rw [loaded] at same
          obtain rfl := Option.some.inj same
          exact fresh
        · intro admitted
          exact ⟨(admitted.resolve_left known) d loaded, PyModule.decoder_wellFormed loaded⟩

theorem inOrder_register (inOrder : s.InOrder) (dec : SrdCDecoder) :
    (s.srdCDecoderRegister dec).1.InOrder ↔ s.Admits (.register dec) := by
  unfold srdCDecoderRegister
  cases named : dec.id with
  | none =>
      refine iff_of_true inOrder fun id same => ?_
      rw [named] at same
      exact nomatch same
  | some id =>
      have appended := decodersInOrder_append inOrder (dec.decoder id s.next)
      rw [SrdCDecoder.decoder_wellFormed] at appended
      refine Iff.trans appended ?_
      constructor
      · intro fresh other same
        rw [named] at same
        obtain rfl := Option.some.inj same
        exact fresh
      · intro admitted
        exact admitted id named

theorem inOrder_apply (inOrder : s.InOrder) (op : LoaderOperation) :
    (s.apply op).InOrder ↔ s.Admits op := by
  cases op with
  | load moduleName m => exact inOrder_load inOrder moduleName m
  | register dec => exact inOrder_register inOrder dec
  | unload address => exact iff_of_true (decodersInOrder_eraseP inOrder _) True.intro
  | unloadC decoderId => exact iff_of_true (decodersInOrder_eraseP inOrder _) True.intro

theorem inOrder_separates : Separates apply InOrder InOrder Admits where
  holds inOrder := inOrder
  keeps inOrder admitted := (inOrder_apply inOrder _).mpr admitted
  breaks inOrder refused := fun later => refused ((inOrder_apply inOrder _).mp later)

def empty (modules : List String) (next : Nat) : LoaderState where
  modules := modules
  pdList := []
  next := next

theorem inOrder_empty (modules : List String) (next : Nat) : (empty modules next).InOrder where
  ids := nodup_nil
  decoders _ member := absurd member not_mem_nil

theorem loadedInOrder_iff (modules : List String) (next : Nat) (ops : List LoaderOperation) :
    HoldsThroughout apply InOrder (empty modules next) ops ↔
      EveryStep apply Admits (empty modules next) ops :=
  inOrder_separates.throughout_iff (inOrder_empty modules next) ops

def twoFirstChannels : SrdCDecoder where
  id := some "pair_c"
  inputs := ["logic"]
  outputs := []
  tags := []
  channels :=
    [{ id := some "clk", name := some "CLK", desc := none, order := 0, type := 0, idn := none },
     { id := some "data", name := some "DATA", desc := none, order := 0, type := 1, idn := none }]
  optionalChannels := []
  options := []
  annotationRows := []

/-- The number for the second channel goes to the entry of the first. -/
theorem twoFirstChannels_registered :
    ¬∀ modules next ops, HoldsThroughout apply InOrder (empty modules next) ops := by
  intro always
  obtain ⟨-, inOrder⟩ := always [] 0 [.register twoFirstChannels]
  obtain ⟨-, addresses⟩ := inOrder.decoders (twoFirstChannels.decoder "pair_c" 0) (by decide)
  obtain ⟨-, i, here, order⟩ := addresses "data" _ rfl
  match i, here, order with
  | 0, here, _ => exact absurd here (by decide)

end LoaderState

end SigrokDecode
