import SigrokDecode.Loader.DecoderIds

/-!
# Channel setup

`srd_inst_channel_set_all` fills a new map and puts it in the place of the old one at the end.
-/

set_option linter.dupNamespace false

namespace SigrokDecode

open List

namespace SrdDecoder

def ChannelsInOrder (d : SrdDecoder) : Prop :=
  ∀ (i : Nat) (channel : SrdChannel), d.allChannels[i]? = some channel → channel.order = (i : Int)

def Resolves (d : SrdDecoder) (newChannels : List (String × Option Int)) : Prop :=
  ∀ entry ∈ newChannels, entry.2.isSome = true ∧ (d.findChannel entry.1).isSome = true

def Assigns (d : SrdDecoder) (newChannels : List (String × Option Int)) (i : Nat)
    (number : Int) : Prop :=
  ∃ channelId channel, (channelId, some number) ∈ newChannels ∧
    d.findChannel channelId = some channel ∧ d.allChannels[i]? = some channel

structure MapsExactly (d : SrdDecoder) (newChannels : List (String × Option Int))
    (channelmap : List Int) : Prop where
  size : channelmap.length = d.allChannels.length
  named : ∀ i number, d.Assigns newChannels i number → channelmap[i]? = some number
  others : ∀ i < channelmap.length, (∀ number, ¬d.Assigns newChannels i number) →
    channelmap[i]? = some (-1)

def MapsRequired (d : SrdDecoder) (newChannels : List (String × Option Int)) : Prop :=
  ∀ i < d.channels.length, ∃ number, d.Assigns newChannels i number ∧ number ≠ -1

variable {d : SrdDecoder} {newChannels : List (String × Option Int)}

variable {channelmap : List Int}

theorem length_setChannels {result : List Int}
    (mapped : d.setChannels channelmap newChannels = .mapped result) :
    result.length = channelmap.length := by
  induction newChannels generalizing channelmap with
  | nil =>
      obtain rfl := ChannelMap.mapped.inj mapped
      rfl
  | cons entry rest ih =>
      obtain ⟨channelId, value⟩ := entry
      cases value with
      | none => cases mapped
      | some number =>
          unfold setChannels at mapped
          split at mapped
          · cases mapped
          · split at mapped
            · exact (ih mapped).trans length_set
            · cases mapped

theorem ChannelsInOrder.place (ordered : d.ChannelsInOrder) {channelId : String}
    {channel : SrdChannel} (found : d.findChannel channelId = some channel) :
    channel.id = some channelId ∧
      ∃ i : Nat, d.allChannels[i]? = some channel ∧ channel.order = (i : Int) := by
  obtain ⟨named, member⟩ := findChannel_mem found
  obtain ⟨i, here⟩ := mem_iff_getElem?.mp member
  exact ⟨named, i, here, ordered i channel here⟩

/-- Different names lead to different places, so that no number of the table is overwritten. -/
theorem setChannels_resolved (ordered : d.ChannelsInOrder)
    (distinct : (newChannels.map Prod.fst).Nodup)
    (resolves : d.Resolves newChannels)
    (size : channelmap.length = d.allChannels.length) :
    ∃ result, d.setChannels channelmap newChannels = .mapped result ∧
      (∀ i number, d.Assigns newChannels i number → result[i]? = some number) ∧
      ∀ i, (∀ number, ¬d.Assigns newChannels i number) → result[i]? = channelmap[i]? := by
  induction newChannels generalizing channelmap with
  | nil =>
      refine ⟨channelmap, rfl, fun i number assigned => ?_, fun _ _ => rfl⟩
      obtain ⟨_, _, member, -⟩ := assigned
      exact absurd member not_mem_nil
  | cons entry rest ih =>
      obtain ⟨channelId, value⟩ := entry
      obtain ⟨apart, distinctRest⟩ := nodup_cons.mp distinct
      obtain ⟨valued, known⟩ := resolves _ mem_cons_self
      obtain ⟨number, rfl⟩ := Option.isSome_iff_exists.mp valued
      obtain ⟨channel, found⟩ := Option.isSome_iff_exists.mp known
      obtain ⟨named, j, there, order⟩ := ordered.place found
      have inside : j < channelmap.length := by
        rw [size]
        exact (List.getElem?_eq_some_iff.mp there).1
      have written : d.setChannels channelmap ((channelId, some number) :: rest) =
          d.setChannels (channelmap.set j number) rest := by
        rw [setChannels, found]
        dsimp only
        rw [if_pos (by omega), order, Int.toNat_natCast]
      have unnamed : ∀ other, ¬d.Assigns rest j other := by
        rintro other ⟨otherId, otherChannel, member, otherFound, here⟩
        rw [there] at here
        obtain rfl := Option.some.inj here
        have same := (ordered.place otherFound).1.symm.trans named
        obtain rfl := Option.some.inj same
        exact apart (mem_map.mpr ⟨_, member, rfl⟩)
      obtain ⟨result, mapped, assigned, kept⟩ := ih distinctRest
        (fun other member => resolves other (mem_cons_of_mem _ member))
        (length_set.trans size : (channelmap.set j number).length = _)
      refine ⟨result, written.trans mapped, ?_, ?_⟩
      · rintro i value ⟨otherId, otherChannel, member, otherFound, here⟩
        rcases mem_cons.mp member with same | later
        · obtain ⟨rfl, sameNumber⟩ := Prod.mk.inj same
          obtain rfl := Option.some.inj sameNumber
          rw [found] at otherFound
          obtain rfl := Option.some.inj otherFound
          have place : i = j := by
            have left := ordered i channel here
            omega
          rw [place, kept j unnamed]
          exact getElem?_set_self inside
        · exact assigned i value ⟨otherId, otherChannel, later, otherFound, here⟩
      · intro i free
        have differs : j ≠ i := by
          rintro rfl
          exact free number ⟨channelId, channel, mem_cons_self, found, there⟩
        have still : ∀ other, ¬d.Assigns rest i other := by
          rintro other ⟨otherId, otherChannel, member, otherFound, here⟩
          exact free other ⟨otherId, otherChannel, mem_cons_of_mem _ member, otherFound, here⟩
        rw [kept i still]
        exact getElem?_set_ne differs

theorem setChannels_unresolved (ordered : d.ChannelsInOrder)
    (unresolved : ¬d.Resolves newChannels) (size : channelmap.length = d.allChannels.length) :
    d.setChannels channelmap newChannels = .refused := by
  induction newChannels generalizing channelmap with
  | nil => exact absurd (fun _ member => absurd member not_mem_nil) unresolved
  | cons entry rest ih =>
      obtain ⟨channelId, value⟩ := entry
      cases value with
      | none => rfl
      | some number =>
          cases found : d.findChannel channelId with
          | none => rw [setChannels, found]
          | some channel =>
              obtain ⟨-, j, there, order⟩ := ordered.place found
              have inside : j < channelmap.length := by
                rw [size]
                exact (List.getElem?_eq_some_iff.mp there).1
              rw [setChannels, found]
              dsimp only
              rw [if_pos (by omega)]
              refine ih (fun resolves => unresolved fun other member => ?_) (length_set.trans size)
              rcases mem_cons.mp member with rfl | later
              · exact ⟨rfl, found ▸ rfl⟩
              · exact resolves other later

end SrdDecoder

/-- What channel setup uses of an instance; `dec_num_channels` is the length of the map. -/
structure ChannelInst where
  decoder : SrdDecoder
  decChannelmap : List Int
  size : decChannelmap.length = decoder.allChannels.length

namespace ChannelInst

def missesRequired (d : SrdDecoder) (channelmap : List Int) : Bool :=
  (List.range d.channels.length).any fun i => channelmap.getD i (-1) == -1

/-- A write outside of the new map has no defined result. -/
def srdInstChannelSetAll (di : ChannelInst) (newChannels : List (String × Option Int)) :
    Option (ChannelInst × LoaderCode) :=
  if newChannels.length = 0 then some (di, .ok)
  else if di.decChannelmap.length = 0 then some (di, .errArg)
  else
    match mapped : di.decoder.newChannelmap newChannels with
    | .outOfRange => none
    | .refused => some (di, .errArg)
    | .mapped channelmap =>
        if missesRequired di.decoder channelmap then some (di, .err)
        else
          some
            ({ decoder := di.decoder
               decChannelmap := channelmap
               size :=
                 (SrdDecoder.length_setChannels mapped).trans List.length_replicate }, .ok)

/-- What a call is to do: it succeeds for the tables that name channels only and map all required
ones, and then the map is that of the table; otherwise it changes nothing. -/
structure SetsChannels (before : ChannelInst) (newChannels : List (String × Option Int))
    (result : ChannelInst × LoaderCode) : Prop where
  accepted : result.2 = .ok ↔
    before.decoder.Resolves newChannels ∧ before.decoder.MapsRequired newChannels
  exact : result.2 = .ok → result.1.decoder = before.decoder ∧
    before.decoder.MapsExactly newChannels result.1.decChannelmap
  atomic : result.2 ≠ .ok → result.1 = before

theorem missesRequired_eq_false {d : SrdDecoder} {newChannels : List (String × Option Int)}
    {channelmap : List Int} (maps : d.MapsExactly newChannels channelmap) :
    missesRequired d channelmap = false ↔ d.MapsRequired newChannels := by
  have inside : ∀ i < d.channels.length, i < channelmap.length := by
    intro i below
    rw [maps.size, SrdDecoder.allChannels, length_append]
    omega
  unfold missesRequired
  rw [any_eq_false]
  constructor
  · intro complete i below
    have mapped := complete i (mem_range.mpr below)
    by_contra missing
    refine mapped (beq_iff_eq.mpr ?_)
    rw [getD_eq_getElem?_getD]
    by_cases assigned : ∃ number, d.Assigns newChannels i number
    · obtain ⟨number, assigns⟩ := assigned
      rw [maps.named i number assigns]
      by_contra other
      exact missing ⟨number, assigns, other⟩
    · rw [maps.others i (inside i below) fun number assigns => assigned ⟨number, assigns⟩]
      rfl
  · intro required i member
    obtain ⟨number, assigns, other⟩ := required i (mem_range.mp member)
    rw [getD_eq_getElem?_getD, maps.named i number assigns]
    exact fun same => other (beq_iff_eq.mp same)

theorem srdInstChannelSetAll_cases (di : ChannelInst) {newChannels : List (String × Option Int)}
    (some : newChannels ≠ []) (ordered : di.decoder.ChannelsInOrder)
    (distinct : (newChannels.map Prod.fst).Nodup) :
    (di.srdInstChannelSetAll newChannels = .some (di, .errArg) ∧ ¬di.decoder.Resolves newChannels) ∨
      ∃ after : ChannelInst, after.decoder = di.decoder ∧ di.decoder.Resolves newChannels ∧
        di.decoder.MapsExactly newChannels after.decChannelmap ∧
        di.srdInstChannelSetAll newChannels =
          .some (if missesRequired di.decoder after.decChannelmap then (di, .err)
            else (after, .ok)) := by
  have notEmpty : ¬newChannels.length = 0 := fun none => some (length_eq_zero_iff.mp none)
  have fresh : (replicate di.decoder.allChannels.length (-1 : Int)).length =
      di.decoder.allChannels.length := length_replicate
  by_cases resolves : di.decoder.Resolves newChannels
  · right
    obtain ⟨channelmap, mapped, named, others⟩ :=
      SrdDecoder.setChannels_resolved ordered distinct resolves fresh
    have size := (SrdDecoder.length_setChannels mapped).trans fresh
    have channels : ¬di.decChannelmap.length = 0 := by
      rw [di.size]
      obtain ⟨entry, member⟩ := exists_mem_of_ne_nil newChannels some
      obtain ⟨channel, found⟩ := Option.isSome_iff_exists.mp (resolves entry member).2
      have place := (SrdDecoder.findChannel_mem found).2
      exact Nat.ne_of_gt (length_pos_of_mem place)
    refine ⟨⟨di.decoder, channelmap, size⟩, rfl, resolves, ⟨size, named, ?_⟩, ?_⟩
    · intro i inside free
      rw [others i free, getElem?_replicate_of_lt (size ▸ inside)]
    · unfold srdInstChannelSetAll
      rw [if_neg notEmpty, if_neg channels]
      split
      · rename_i wrong
        cases wrong.symm.trans mapped
      · rename_i wrong
        cases wrong.symm.trans mapped
      · rename_i result right
        obtain rfl := SrdDecoder.ChannelMap.mapped.inj (right.symm.trans mapped)
        split
        · rfl
        · rfl
  · left
    refine ⟨?_, resolves⟩
    have refused : di.decoder.newChannelmap newChannels = .refused :=
      SrdDecoder.setChannels_unresolved ordered resolves fresh
    unfold srdInstChannelSetAll
    rw [if_neg notEmpty]
    split
    · rfl
    · split
      · rename_i wrong
        cases wrong.symm.trans refused
      · rfl
      · rename_i wrong
        cases wrong.symm.trans refused

/-- Every table with names in it is set as a whole or not at all; one without is no request. -/
theorem channelSetAll_exact (di : ChannelInst) (ordered : di.decoder.ChannelsInOrder)
    (newChannels : List (String × Option Int)) (distinct : (newChannels.map Prod.fst).Nodup) :
    ∃ result, di.srdInstChannelSetAll newChannels = some result ∧
      (newChannels = [] → result = (di, .ok)) ∧
      (newChannels ≠ [] → di.SetsChannels newChannels result) := by
  by_cases none : newChannels = []
  · subst none
    exact ⟨(di, .ok), rfl, fun _ => rfl, fun some => absurd rfl some⟩
  · rcases srdInstChannelSetAll_cases di none ordered distinct with
      ⟨refused, unresolved⟩ | ⟨after, same, resolves, maps, result⟩
    · refine ⟨_, refused, fun empty => absurd empty none, fun _ => ⟨?_, nofun, fun _ => rfl⟩⟩
      exact iff_of_false nofun fun both => unresolved both.1
    · refine ⟨_, result, fun empty => absurd empty none, fun _ => ?_⟩
      have required := missesRequired_eq_false maps
      cases misses : missesRequired di.decoder after.decChannelmap with
      | true =>
          rw [misses] at required
          rw [if_pos rfl]
          refine ⟨iff_of_false nofun fun both => ?_, nofun, fun _ => rfl⟩
          exact Bool.false_ne_true (required.mpr both.2).symm
      | false =>
          rw [if_neg Bool.false_ne_true]
          exact ⟨iff_of_true rfl ⟨resolves, required.mp misses⟩, fun _ => ⟨same, maps⟩,
            fun failed => absurd rfl failed⟩

def clockAndData : ChannelInst where
  decoder :=
    { address := 0
      id := "clocked"
      isCDecoder := false
      inputs := ["logic"]
      outputs := []
      tags := []
      channels := [⟨some "clk", some "CLK", none, 0, srdChannelCommon, none⟩]
      optChannels := [⟨some "data", some "DATA", none, 1, srdChannelCommon, none⟩]
      options := []
      annotationRows := [] }
  decChannelmap := [0, 1]
  size := rfl

theorem clockAndData_inOrder : clockAndData.decoder.ChannelsInOrder := by
  intro i channel here
  match i, here with
  | 0, here => obtain rfl := Option.some.inj here; rfl
  | 1, here => obtain rfl := Option.some.inj here; rfl
  | _ + 2, here => cases here

theorem channelSetAll_exact_clock :
    ∃ result, clockAndData.srdInstChannelSetAll [("clk", some 5)] = some result ∧
      (([("clk", some 5)] : List (String × Option Int)) = [] → result = (clockAndData, .ok)) ∧
      (([("clk", some 5)] : List (String × Option Int)) ≠ [] →
        clockAndData.SetsChannels [("clk", some 5)] result) :=
  channelSetAll_exact clockAndData clockAndData_inOrder [("clk", some 5)] (by decide)

/-- The empty table succeeds, and the map stays as it is. -/
theorem channelSetAll_empty_kept : clockAndData.srdInstChannelSetAll [] = some (clockAndData, .ok) ∧
      ¬clockAndData.SetsChannels [] (clockAndData, .ok) := by
  refine ⟨rfl, fun sets => ?_⟩
  obtain ⟨-, maps⟩ := sets.exact rfl
  have first := maps.others 0 (by decide) fun number assigned => ?_
  · exact absurd first (by decide)
  · obtain ⟨_, _, member, -⟩ := assigned
    exact absurd member not_mem_nil

end ChannelInst

end SigrokDecode
