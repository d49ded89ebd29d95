import SigrokDecode.Session.Stacks

/-!
# Stacks as forests

Which calls keep every instance at the end of exactly one path, so that the recursive walks over a
session end and come to each instance once.
-/

set_option linter.dupNamespace false

namespace SigrokDecode

open Foundation List

namespace LibraryState

structure StacksAreForests (s : LibraryState) : Prop where
  acyclic : ∀ x ∈ s.sessions, ∀ di, s.Holds x di →
    ∀ position path, follow s.nextDi (s.nextDi di) position path ≠ some di
  onePath : ∀ x ∈ s.sessions, ∀ di, s.Holds x di →
    ∃! route : Nat × List Nat, follow s.nextDi x.diList route.1 route.2 = some di
  /-- The walk of `srd_inst_start` and `srd_inst_terminate_reset`. -/
  walks : ∀ x ∈ s.sessions, ∃ visited, Walk s.nextDi x.diList visited ∧ visited.Nodup ∧
    ∀ di, di ∈ visited ↔ s.Holds x di
  /-- The free walk of a session that has been destroyed came to each instance once. -/
  freed : ∀ di < s.allocated, (∀ x ∈ s.sessions, x.sessionId ≠ (s.instances di).sess) →
    (s.instances di).freed = 1

/-- The walks, and what else the calls need. -/
structure Planted (s : LibraryState) : Prop extends s.Numbered where
  walks : ∀ x ∈ s.sessions, ∃ visited, Walk s.nextDi x.diList visited ∧ visited.Nodup ∧
    ∀ di, di ∈ visited ↔ s.Holds x di
  live : ∀ x ∈ s.sessions, ∀ di < s.allocated, (s.instances di).sess = x.sessionId →
    (s.instances di).freed = 0
  freed : ∀ di < s.allocated, (∀ x ∈ s.sessions, x.sessionId ≠ (s.instances di).sess) →
    (s.instances di).freed = 1

variable {s t : LibraryState}

theorem Planted.forests (planted : s.Planted) : s.StacksAreForests where
  acyclic x member di holds position path := by
    obtain ⟨visited, walk, -, all⟩ := planted.walks x member
    exact walk.acyclic ((all di).mpr holds) position path
  onePath x member di holds := by
    obtain ⟨visited, walk, once, all⟩ := planted.walks x member
    obtain ⟨position, path, found⟩ := walk.exists_path ((all di).mpr holds)
    refine ⟨(position, path), found, ?_⟩
    rintro ⟨other, route⟩ again
    obtain ⟨rfl, rfl⟩ := walk.path_unique once found again
    rfl
  walks := planted.walks
  freed := planted.freed

variable {di : Nat} {x : SrdSession}

theorem Planted.exists_holds (planted : s.Planted) (alive : s.Alive di) :
    ∃ x ∈ s.sessions, s.Holds x di := by
  by_contra nowhere
  have dead := planted.freed di alive.1 fun x member same =>
    nowhere ⟨x, member, alive, same.symm⟩
  rw [alive.2] at dead
  exact nomatch dead

theorem Planted.holds_of_mem (planted : s.Planted) (member : x ∈ s.sessions)
    (listed : di ∈ x.diList) : s.Holds x di := by
  obtain ⟨visited, walk, -, all⟩ := planted.walks x member
  exact (all di).mp (walk.roots_sublist.subset listed)

theorem Planted.diList_nodup (planted : s.Planted) (member : x ∈ s.sessions) : x.diList.Nodup := by
  obtain ⟨visited, walk, once, -⟩ := planted.walks x member
  exact once.sublist walk.roots_sublist

theorem SameLists.planted (same : SameLists s t) (planted : s.Planted) : t.Planted where
  toNumbered := same.numbered planted.toNumbered
  walks x member := by
    rw [same.sessions] at member
    obtain ⟨visited, walk, once, all⟩ := planted.walks x member
    refine ⟨visited, walk.congr fun di _ => same.nextDi di, once, fun di => ?_⟩
    rw [same.holds_iff]
    exact all di
  live x member di below owner := by
    rw [same.sessions] at member
    rw [same.allocated] at below
    rw [same.sess] at owner
    rw [same.freed]
    exact planted.live x member di below owner
  freed di below gone := by
    rw [same.allocated] at below
    rw [same.sessions, same.sess] at gone
    rw [same.freed]
    exact planted.freed di below gone

theorem Planted.srdSessionNew (planted : s.Planted) : s.srdSessionNew.Planted where
  toNumbered := planted.toNumbered.srdSessionNew
  walks x member := by
    rcases mem_append.mp member with old | new
    · exact planted.walks x old
    · rw [mem_singleton.mp new]
      refine ⟨[], .nil, nodup_nil, fun di => iff_of_false not_mem_nil ?_⟩
      rintro ⟨⟨below, -⟩, owner⟩
      have bound := planted.owned di below
      rw [show (s.instances di).sess = s.maxSessionId + 1 from owner] at bound
      exact Nat.not_succ_le_self _ bound
  live x member di below owner := by
    rcases mem_append.mp member with old | new
    · exact planted.live x old di below owner
    · rw [mem_singleton.mp new] at owner
      have bound := planted.owned di below
      rw [show (s.instances di).sess = s.maxSessionId + 1 from owner] at bound
      exact absurd bound (Nat.not_succ_le_self _)
  freed di below gone := planted.freed di below fun x member =>
    gone x (mem_append_left _ member)

variable {sess diTop diBottom : Nat}

theorem holds_addInst_old {di : Nat} (d : SrdDecoder) (x : SrdSession)
    (old : di ≠ s.allocated) : (s.addInst sess d).Holds x di ↔ s.Holds x di := by
  unfold Holds Alive
  rw [instances_addInst, if_neg old]
  refine and_congr_left fun _ => and_congr_left fun _ => ?_
  exact ⟨fun below => Nat.lt_of_le_of_ne (Nat.le_of_lt_succ below) old, Nat.lt_succ_of_lt⟩

theorem holds_addInst_new (sess : Nat) (d : SrdDecoder) (x : SrdSession) :
    (s.addInst sess d).Holds x s.allocated ↔ sess = x.sessionId := by
  unfold Holds Alive
  rw [instances_addInst, if_pos rfl]
  exact and_iff_right ⟨Nat.lt_succ_self _, rfl⟩

theorem Planted.addInst (planted : s.Planted)
    (found : s.findSession sess = some x) (d : SrdDecoder) : (s.addInst sess d).Planted := by
  obtain ⟨stored, number⟩ := findSession_some found
  constructor
  · exact planted.toNumbered.addInst found d
  · intro y member
    obtain ⟨before, earlier, rfl⟩ := mem_addInst.mp member
    obtain ⟨visited, walk, once, all⟩ := planted.walks before earlier
    have fresh : s.allocated ∉ visited := fun inside =>
      absurd ((all _).mp inside).1.1 (Nat.lt_irrefl _)
    have walkOld : Walk (s.addInst sess d).nextDi before.diList visited :=
      walk.congr fun di inside => nextDi_addInst sess d fun same => fresh (same ▸ inside)
    have holds : ∀ di, di ≠ s.allocated → (di ∈ visited ↔ (s.addInst sess d).Holds
        (if before.sessionId = sess then
          { before with diList := before.diList ++ [s.allocated] } else before) di) := by
      intro di old
      rw [holds_addInst_old d _ old, all di, Holds, Holds, sessionId_ite]
    by_cases here : before.sessionId = sess
    · rw [if_pos here] at holds ⊢
      have walkNew : Walk (s.addInst sess d).nextDi [s.allocated] [s.allocated] :=
        walk_singleton_iff.mpr ⟨[], by rw [nextDi_addInst_new]; exact .nil, rfl⟩
      refine ⟨visited ++ [s.allocated],
        walk_append_iff.mpr ⟨visited, _, walkOld, walkNew, rfl⟩, ?_, fun di => ?_⟩
      · refine nodup_append.mpr ⟨once, nodup_singleton _, ?_⟩
        rintro di inside other single rfl
        exact fresh (mem_singleton.mp single ▸ inside)
      · rw [mem_append, mem_singleton]
        by_cases new : di = s.allocated
        · subst new
          exact iff_of_true (.inr rfl) ((holds_addInst_new sess d _).mpr here.symm)
        · rw [or_iff_left new]
          exact holds di new
    · rw [if_neg here] at holds ⊢
      refine ⟨visited, walkOld, once, fun di => ?_⟩
      by_cases new : di = s.allocated
      · subst new
        refine iff_of_false fresh fun held => here ?_
        exact ((holds_addInst_new sess d _).mp held).symm
      · exact holds di new
  · intro y member di below owner
    obtain ⟨before, earlier, rfl⟩ := mem_addInst.mp member
    rw [sessionId_ite, instances_addInst] at owner
    rw [instances_addInst]
    split
    · rfl
    · rename_i old
      rw [if_neg old] at owner
      exact planted.live before earlier di (Nat.lt_of_le_of_ne (Nat.le_of_lt_succ below) old) owner
  · intro di below gone
    rw [instances_addInst]
    split
    · rename_i new
      subst new
      refine absurd ?_ (gone _ (mem_addInst.mpr ⟨x, stored, rfl⟩))
      rw [sessionId_ite, instances_addInst, if_pos rfl]
      exact number
    · rename_i old
      refine planted.freed di (Nat.lt_of_le_of_ne (Nat.le_of_lt_succ below) old) ?_
      intro y member same
      refine gone _ (mem_addInst.mpr ⟨y, member, rfl⟩) ?_
      rw [sessionId_ite, instances_addInst, if_neg old]
      exact same

/-! ## Stacking -/

theorem holds_link (sess diBottom diTop : Nat) (x y : SrdSession) (di : Nat)
    (same : y.sessionId = x.sessionId) :
    (s.link sess diBottom diTop).Holds y di ↔ s.Holds x di := by
  unfold Holds Alive
  rw [sess_link, freed_link, same]
  exact Iff.rfl

theorem Planted.cut (planted : s.Planted) (member : x ∈ s.sessions) (listed : diTop ∈ x.diList) :
    ∃ rest above, Walk s.nextDi (x.diList.erase diTop) rest ∧ Walk s.nextDi [diTop] above ∧
      (rest ++ above).Nodup ∧ ∀ di, di ∈ rest ++ above ↔ s.Holds x di := by
  obtain ⟨visited, walk, once, all⟩ := planted.walks x member
  obtain ⟨before, after, -, split, erased⟩ := exists_erase_eq listed
  rw [split] at walk
  obtain ⟨first, others, walkFirst, walkOthers, rfl⟩ := walk_append_iff.mp walk
  rw [← singleton_append] at walkOthers
  obtain ⟨above, last, walkTop, walkLast, rfl⟩ := walk_append_iff.mp walkOthers
  have sameNodes : (first ++ last ++ above).Perm (first ++ (above ++ last)) := by
    rw [List.append_assoc]
    exact (perm_append_comm).append_left first
  refine ⟨first ++ last, above, ?_, walkTop, sameNodes.nodup_iff.mpr once, fun di => ?_⟩
  · rw [erased]
    exact walk_append_iff.mpr ⟨first, last, walkFirst, walkLast, rfl⟩
  · rw [sameNodes.mem_iff]
    exact all di

theorem sessions_link_of_not_listed
    (unlisted : ∀ x ∈ s.sessions, x.sessionId = sess → diTop ∉ x.diList) :
    (s.link sess diBottom diTop).sessions = s.sessions := by
  refine (map_congr_left fun x member => ?_).trans (map_id _)
  split
  · rename_i here
    exact congrArg (SrdSession.mk x.sessionId) (erase_of_not_mem (unlisted x member here))
  · rfl

theorem Planted.link (planted : s.Planted) (member : x ∈ s.sessions) (listed : diTop ∈ x.diList) (bottom : s.Holds x diBottom)
    (apart : ¬Reaches s.nextDi (· = diTop) diBottom) :
    (s.link x.sessionId diBottom diTop).Planted := by
  constructor
  · exact planted.toNumbered.link _ _ _
  · intro y stored
    obtain ⟨before, earlier, rfl⟩ := mem_link.mp stored
    have other : ∀ di, di ≠ diBottom →
        (s.link x.sessionId diBottom diTop).nextDi di = s.nextDi di :=
      fun di => nextDi_link _ _
    by_cases here : before.sessionId = x.sessionId
    · obtain rfl := eq_of_sessionId planted.ids earlier member here
      obtain ⟨rest, above, walkRest, walkTop, once, all⟩ := planted.cut member listed
      have outside : diBottom ∉ above := by
        intro inside
        refine apart ((walkTop.mem_iff_reaches.mp inside).of_roots fun root single => ?_)
        exact .root (mem_singleton.mp single)
      have walkAbove : Walk (s.link before.sessionId diBottom diTop).nextDi [diTop] above :=
        walkTop.congr fun di inside => other di fun same => outside (same ▸ inside)
      obtain ⟨longer, walkLonger, counts⟩ :=
        walkRest.link other (nextDi_link_bottom _ _ _) walkAbove
      have onceBottom : rest.count diBottom = 1 := by
        have inRest : diBottom ∈ rest :=
          (mem_append.mp ((all diBottom).mpr bottom)).resolve_right outside
        exact count_eq_one_of_mem (nodup_append.mp once).1 inRest
      have sameNodes : longer.Perm (rest ++ above) := by
        refine perm_iff_count.mpr fun di => ?_
        rw [counts di, onceBottom, Nat.one_mul, count_append]
      rw [if_pos rfl]
      refine ⟨longer, walkLonger, sameNodes.nodup_iff.mpr once, fun di => ?_⟩
      rw [sameNodes.mem_iff, all di]
      exact (holds_link _ _ _ _ _ di rfl).symm
    · obtain ⟨visited, walk, once, all⟩ := planted.walks before earlier
      rw [if_neg here]
      refine ⟨visited, walk.congr fun di inside => other di ?_, once, fun di => ?_⟩
      · rintro rfl
        exact here (((all di).mp inside).2.symm.trans bottom.2)
      · rw [all di]
        exact (holds_link _ _ _ _ _ di rfl).symm
  · intro y stored di below owner
    obtain ⟨before, earlier, rfl⟩ := mem_link.mp stored
    rw [sessionId_ite, sess_link] at owner
    rw [freed_link]
    exact planted.live before earlier di below owner
  · intro di below gone
    rw [freed_link]
    refine planted.freed di below fun y stored same => ?_
    refine gone _ (mem_link.mpr ⟨y, stored, rfl⟩) ?_
    rw [sessionId_ite, sess_link]
    exact same

/-- The calls of `srd_inst_stack` that keep forests. -/
def StacksFromList (s : LibraryState) (sess diBottom diTop : Nat) : Prop :=
  ∃ x ∈ s.sessions, x.sessionId = sess ∧ diTop ∈ x.diList ∧ s.Holds x diBottom ∧
    ¬Reaches s.nextDi (· = diTop) diBottom

theorem Planted.link_breaks (planted : s.Planted)
    (call : s.StackCall sess diBottom diTop) (breaks : ¬s.StacksFromList sess diBottom diTop) :
    ¬(s.link sess diBottom diTop).StacksAreForests := by
  intro forests
  obtain ⟨found, aliveBottom, aliveTop, -⟩ := call
  obtain ⟨x, found⟩ := Option.isSome_iff_exists.mp found
  obtain ⟨member, rfl⟩ := findSession_some found
  have other : ∀ di, di ≠ diBottom → (s.link x.sessionId diBottom diTop).nextDi di = s.nextDi di :=
    fun di => nextDi_link _ _
  by_cases listed : diTop ∈ x.diList
  · -- The instance is taken out of its list, and what is left does not come to `diBottom`.
    obtain ⟨rest, above, walkRest, walkTop, once, all⟩ := planted.cut member listed
    have topAbove : diTop ∈ above := walkTop.roots_sublist.subset mem_cons_self
    have outside : diBottom ∉ rest := by
      intro inside
      have bottom : s.Holds x diBottom := (all _).mp (mem_append_left _ inside)
      refine breaks ⟨x, member, rfl, listed, bottom, fun reached => ?_⟩
      have below : diBottom ∈ above := by
        refine walkTop.mem_iff_reaches.mpr (reached.of_roots fun root same => .root ?_)
        exact mem_singleton.mpr same
      exact (nodup_append.mp once).2.2 _ inside _ below rfl
    obtain ⟨visited, walk, -, reaches⟩ :=
      forests.walks { x with diList := x.diList.erase diTop }
        (mem_link.mpr ⟨x, member, (if_pos rfl).symm⟩)
    have walkSame : Walk (s.link x.sessionId diBottom diTop).nextDi (x.diList.erase diTop) rest :=
      walkRest.congr fun di inside => other di fun same => outside (same ▸ inside)
    obtain rfl := walk.unique walkSame
    have topHeld : s.Holds x diTop := planted.holds_of_mem member listed
    have topRest : diTop ∈ visited := (reaches _).mpr ((holds_link _ _ _ x _ _ rfl).mpr topHeld)
    exact (nodup_append.mp once).2.2 _ topRest _ topAbove rfl
  · -- The instance stays where it was, and is found once more through `diBottom`.
    obtain ⟨y, stored, bottom⟩ := planted.exists_holds aliveBottom
    obtain ⟨visited, walk, once, all⟩ := planted.walks y stored
    have unlisted : ∀ z ∈ s.sessions, z.sessionId = x.sessionId → diTop ∉ z.diList := by
      intro z present same
      rw [eq_of_sessionId planted.ids present member same]
      exact listed
    have storedAfter : y ∈ (s.link x.sessionId diBottom diTop).sessions := by
      rw [sessions_link_of_not_listed unlisted]
      exact stored
    obtain ⟨after, walkAfter, onceAfter, allAfter⟩ := forests.walks y storedAfter
    have inAfter : diBottom ∈ after := (allAfter _).mpr ((holds_link _ _ _ y _ _ rfl).mpr bottom)
    obtain ⟨inner, walkInner, -, -⟩ := walkAfter.exists_inner inAfter
    rw [nextDi_link_bottom] at walkInner
    obtain ⟨-, above, -, walkTop, -⟩ := walk_append_iff.mp walkInner
    obtain ⟨longer, walkLonger, counts⟩ := walk.link other (nextDi_link_bottom _ _ _) walkTop
    obtain rfl := walkAfter.unique walkLonger
    have onceBottom : visited.count diBottom = 1 := count_eq_one_of_mem once ((all _).mpr bottom)
    have topAbove : 0 < above.count diTop :=
      count_pos_iff.mpr (walkTop.roots_sublist.subset mem_cons_self)
    have count := counts diTop
    rw [onceBottom, Nat.one_mul] at count
    have topAfter : diTop ∈ after := count_pos_iff.mp (by omega)
    have topHeld : s.Holds y diTop := (holds_link _ _ _ y _ _ rfl).mp ((allAfter _).mp topAfter)
    have topBefore : visited.count diTop = 1 := count_eq_one_of_mem once ((all _).mpr topHeld)
    have onceTop : after.count diTop = 1 := count_eq_one_of_mem onceAfter topAfter
    omega

theorem Planted.count_of_other (planted : s.Planted) (stored : x ∈ s.sessions)
    (other : (s.instances di).sess ≠ x.sessionId) : x.diList.count di = 0 :=
  count_eq_zero_of_not_mem fun listed => other (planted.holds_of_mem stored listed).2

theorem Planted.destroy (planted : s.Planted) (stored : x ∈ s.sessions)
    (unstacked : ∀ di, s.Holds x di → di ∈ x.diList) :
    ({ s with sessions := s.sessions.erase x }.srdInstFreeAll x).Planted where
  toNumbered := planted.toNumbered.destroy x
  walks y member := by
    obtain ⟨present, number⟩ := (mem_erase_iff planted.ids stored).mp member
    obtain ⟨visited, walk, once, all⟩ := planted.walks y present
    refine ⟨visited, walk, once, fun di => ?_⟩
    rw [all di]
    refine and_congr_left fun owner => and_congr_right fun _ => ?_
    have other : (s.instances di).sess ≠ x.sessionId := fun same => number (owner.symm.trans same)
    change _ ↔ (s.instances di).freed + x.diList.count di = 0
    rw [planted.count_of_other stored other]
    exact Iff.rfl
  live y member di below owner := by
    obtain ⟨present, number⟩ := (mem_erase_iff planted.ids stored).mp member
    have other : (s.instances di).sess ≠ x.sessionId := fun same => number (owner.symm.trans same)
    change (s.instances di).freed + x.diList.count di = 0
    rw [planted.count_of_other stored other]
    exact planted.live y present di below owner
  freed di below gone := by
    change (s.instances di).freed + x.diList.count di = 1
    by_cases own : (s.instances di).sess = x.sessionId
    · have alive := planted.live x stored di below own
      rw [alive, count_eq_one_of_mem (planted.diList_nodup stored)
        (unstacked di ⟨⟨below, alive⟩, own⟩)]
    · rw [planted.count_of_other stored own]
      refine planted.freed di below fun y member same => ?_
      refine gone y ((mem_erase_iff planted.ids stored).mpr ⟨member, fun number => ?_⟩) same
      exact own (same.symm.trans number)

theorem Planted.destroy_breaks (planted : s.Planted) (stored : x ∈ s.sessions)
    (held : s.Holds x di) (stacked : di ∉ x.diList) :
    ¬({ s with sessions := s.sessions.erase x }.srdInstFreeAll x).StacksAreForests := by
  intro forests
  have freed : (s.instances di).freed + x.diList.count di = 1 := by
    refine forests.freed di held.1.1 fun y member same => ?_
    have apart := ((mem_erase_iff planted.ids stored).mp member).2
    exact apart (same.trans held.2)
  rw [held.1.2, count_eq_zero_of_not_mem stacked] at freed
  exact nomatch freed

theorem decoderUnload_breaks (address : Nat) (stored : x ∈ s.sessions)
    (listed : di ∈ x.diList) : ¬(s.srdDecoderUnload address).StacksAreForests := by
  intro forests
  have storedAfter : x ∈ (s.srdDecoderUnload address).sessions := by
    rw [srdDecoderUnload_eq]
    exact stored
  obtain ⟨visited, walk, -, all⟩ := forests.walks x storedAfter
  have alive := ((all di).mp (walk.roots_sublist.subset listed)).1.2
  have freed := freed_decoderUnload_pos address stored listed
  rw [alive] at freed
  exact Nat.lt_irrefl _ freed

def KeepsForests (s : LibraryState) : LibraryOperation → Prop
  | .instStack sess diBottom diTop =>
      s.StackCall sess diBottom diTop → s.StacksFromList sess diBottom diTop
  | .sessionDestroy sess => ∀ x ∈ s.sessions, x.sessionId = sess →
      ∀ di, s.Holds x di → di ∈ x.diList
  | .decoderUnload _ => ∀ x ∈ s.sessions, x.diList = []
  | _ => True

theorem Planted.apply (planted : s.Planted) {op : LibraryOperation} (keeps : s.KeepsForests op) :
    (s.apply op).Planted := by
  cases op with
  | pythonLoad moduleName m => exact (sameLists_registry _).planted planted
  | cDecoderLoad dllPath plugin => exact (sameLists_registry _).planted planted
  | cDecoderUnload decoderId => exact (sameLists_registry _).planted planted
  | decoderUnload address => exact (sameLists_decoderUnload address keeps).planted planted
  | sessionNew => exact planted.srdSessionNew
  | sessionDestroy sess =>
      change (s.srdSessionDestroy sess).Planted
      cases found : s.findSession sess with
      | none =>
          rw [srdSessionDestroy, found]
          exact planted
      | some x =>
          obtain ⟨stored, number⟩ := findSession_some found
          rw [srdSessionDestroy_eq found]
          exact planted.destroy stored (keeps x stored number)
  | instNew sess decoderId accepted =>
      change (s.srdInstNew sess decoderId accepted).Planted
      rcases s.srdInstNew_cases sess decoderId accepted with same | ⟨x, d, found, created⟩
      · rw [same]
        exact planted
      · rw [created]
        exact planted.addInst found d
  | instStack sess diBottom diTop =>
      change (s.srdInstStack sess diBottom diTop).Planted
      unfold srdInstStack
      split
      · rename_i call
        obtain ⟨x, member, rfl, listed, bottom, apart⟩ := keeps call
        exact planted.link member listed bottom apart
      · exact planted
  | decodeReturned di => exact (sameLists_decodeReturned di).planted planted
  | resetState di => exact (sameLists_srdInstResetState di).planted planted

theorem Planted.apply_breaks (planted : s.Planted) {op : LibraryOperation}
    (breaks : ¬s.KeepsForests op) : ¬(s.apply op).StacksAreForests := by
  cases op with
  | decoderUnload address =>
      obtain ⟨x, stored, filled⟩ : ∃ x ∈ s.sessions, x.diList ≠ [] := by
        by_contra empty
        refine breaks fun x stored => ?_
        by_contra filled
        exact empty ⟨x, stored, filled⟩
      obtain ⟨di, listed⟩ := exists_mem_of_ne_nil _ filled
      exact decoderUnload_breaks address stored listed
  | sessionDestroy sess =>
      obtain ⟨x, stored, number, di, held, stacked⟩ :
          ∃ x ∈ s.sessions, x.sessionId = sess ∧ ∃ di, s.Holds x di ∧ di ∉ x.diList := by
        by_contra none
        refine breaks fun x stored number di held => ?_
        by_contra stacked
        exact none ⟨x, stored, number, di, held, stacked⟩
      have found : s.findSession sess = some x := findSession_eq planted.ids stored number
      change ¬(s.srdSessionDestroy sess).StacksAreForests
      rw [srdSessionDestroy_eq found]
      exact planted.destroy_breaks stored held stacked
  | instStack sess diBottom diTop =>
      obtain ⟨call, wrong⟩ := Classical.not_imp.mp breaks
      change ¬(s.srdInstStack sess diBottom diTop).StacksAreForests
      rw [srdInstStack, if_pos call]
      exact planted.link_breaks call wrong
  | _ => exact absurd True.intro breaks

theorem planted_start (modules : List String) : (start modules).Planted where
  toNumbered := numbered_start modules
  walks _ member := absurd member not_mem_nil
  live _ member := absurd member not_mem_nil
  freed _ below := absurd below (Nat.not_lt_zero _)

theorem forests_separate : Separates apply Planted StacksAreForests KeepsForests where
  holds planted := planted.forests
  keeps planted keeps := planted.apply keeps
  breaks planted breaks := planted.apply_breaks breaks

theorem stacksAreForests_iff (modules : List String) (ops : List LibraryOperation) :
    HoldsThroughout apply StacksAreForests (start modules) ops ↔
      EveryStep apply KeepsForests (start modules) ops :=
  forests_separate.throughout_iff (planted_start modules) ops

def plainPlugin (id : String) : Plugin :=
  .library 1 (some 4) (some (some
    { id := some id, inputs := ["logic"], outputs := ["bytes"], tags := [], channels := [],
      optionalChannels := [], options := [], annotationRows := [] }))

def oneInstance : List LibraryOperation :=
  [.cDecoderLoad "/lib/uart_c.so" (plainPlugin "uart_c"), .sessionNew, .instNew 1 "uart_c" true]

def selfStack : List LibraryOperation :=
  oneInstance ++ [LibraryState.LibraryOperation.instStack 1 0 0]

/-- It is gone from the list, and holds itself. -/
theorem selfStack_not_forest :
    ¬∀ modules ops, HoldsThroughout apply StacksAreForests (start modules) ops := by
  intro always
  obtain ⟨-, -, -, -, forests⟩ := always [] selfStack
  have held : Holds (selfStack.foldl apply (start [])) { sessionId := 1, diList := [] } 0 :=
    ⟨by decide +kernel, by decide +kernel⟩
  exact forests.acyclic { sessionId := 1, diList := [] } (by decide +kernel) 0 held 0 []
    (by decide +kernel)

end LibraryState

end SigrokDecode
