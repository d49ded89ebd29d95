import Mathlib.Data.List.Perm.Basic
import SigrokDecode.Session.StackForests

/-!
# Identifiers of instances

`srd_inst_new` numbers the instances for which no identifier is given, and asks
`srd_inst_find_by_id` whether a number is free. That function looks at the instances of `di_list`
and at what is directly on top of them.
-/

set_option linter.dupNamespace false

namespace SigrokDecode

open Foundation List LibraryState

/-- The library, and `inst_id` of the instances. -/
structure NamedInstances where
  library : LibraryState
  instId : Nat → String

namespace NamedInstances

/-- `di_list` of a session. -/
def diList (s : NamedInstances) (sess : Nat) : List Nat :=
  ((s.library.findSession sess).map SrdSession.diList).getD []

def srdInstFindByIdStack (s : NamedInstances) (instId : String) (stack : Nat) : Option Nat :=
  if s.instId stack = instId then some stack
  else (s.library.nextDi stack).find? fun tmp => s.instId tmp = instId

def srdInstFindById (s : NamedInstances) (sess : Nat) (instId : String) : Option Nat :=
  (s.diList sess).findSome? (s.srdInstFindByIdStack instId)

/-- The format `%s-%d`. -/
def numberedId (decoderId : String) (i : Nat) : String :=
  decoderId ++ "-" ++ toString i

/-- "Create a unique instance ID": the loop from number `i` on, with at most `rounds` rounds. -/
def uniqueId (s : NamedInstances) (sess : Nat) (decoderId : String) : Nat → Nat → String
  | 0, i => numberedId decoderId i
  | rounds + 1, i =>
      if (s.srdInstFindById sess (numberedId decoderId i)).isSome then
        s.uniqueId sess decoderId rounds (i + 1)
      else numberedId decoderId i

/-- The instances that `srd_inst_find_by_id` looks at. -/
def lookedAt (s : NamedInstances) (sess : Nat) : List Nat :=
  (s.diList sess).flatMap fun di => di :: s.library.nextDi di

/-- The identifier of a new instance; `given` is the one in the options. -/
def newId (s : NamedInstances) (sess : Nat) (decoderId : String) (given : Option String) : String :=
  given.getD (s.uniqueId sess decoderId (s.lookedAt sess).length 1)

def srdInstNew (s : NamedInstances) (sess : Nat) (decoderId : String) (given : Option String)
    (accepted : Bool) : NamedInstances where
  library := s.library.srdInstNew sess decoderId accepted
  instId := Function.update s.instId s.library.allocated (s.newId sess decoderId given)

/-- An instance of the session, in its list or at any depth of a stack. -/
def Live (s : NamedInstances) (sess di : Nat) : Prop :=
  s.library.Alive di ∧ (s.library.instances di).sess = sess

instance (s : NamedInstances) (sess di : Nat) : Decidable (s.Live sess di) :=
  inferInstanceAs (Decidable (_ ∧ _))

/-- `srd_inst_stack`; the pointers are those of instances of the session. -/
def srdInstStack (s : NamedInstances) (sess diBottom diTop : Nat) : NamedInstances :=
  if s.Live sess diBottom ∧ s.Live sess diTop then
    { s with library := s.library.srdInstStack sess diBottom diTop }
  else s

inductive SessionCall
  | instNew (decoderId : String) (given : Option String) (accepted : Bool)
  | instStack (diBottom diTop : Nat)

def apply (sess : Nat) (s : NamedInstances) : SessionCall → NamedInstances
  | .instNew decoderId given accepted => s.srdInstNew sess decoderId given accepted
  | .instStack diBottom diTop => s.srdInstStack sess diBottom diTop

/-- Different instances of the session have different identifiers, and each is found. -/
structure IdsUniqueAndFound (sess : Nat) (s : NamedInstances) : Prop where
  unique : ∀ first second, s.Live sess first → s.Live sess second →
    s.instId first = s.instId second → first = second
  found : ∀ di, s.Live sess di → (s.srdInstFindById sess (s.instId di)).isSome = true

variable {s : NamedInstances} {sess : Nat}

variable {di : Nat} {instId : String} {x : SrdSession}

theorem mem_lookedAt : di ∈ s.lookedAt sess ↔
      di ∈ s.diList sess ∨ ∃ root ∈ s.diList sess, di ∈ s.library.nextDi root := by
  rw [lookedAt, mem_flatMap]
  constructor
  · rintro ⟨root, listed, member⟩
    rcases mem_cons.mp member with rfl | stacked
    · exact Or.inl listed
    · exact Or.inr ⟨root, listed, stacked⟩
  · rintro (listed | ⟨root, listed, stacked⟩)
    · exact ⟨di, listed, mem_cons_self⟩
    · exact ⟨root, listed, mem_cons_of_mem _ stacked⟩

theorem srdInstFindByIdStack_some {stack di : Nat}
    (found : s.srdInstFindByIdStack instId stack = some di) :
    di ∈ stack :: s.library.nextDi stack ∧ s.instId di = instId := by
  unfold srdInstFindByIdStack at found
  split at found
  · next same =>
      obtain rfl := Option.some.inj found
      exact ⟨mem_cons_self, same⟩
  · have same : decide (s.instId di = instId) = true :=
      find?_some (p := fun tmp => decide (s.instId tmp = instId)) found
    exact ⟨mem_cons_of_mem _ (mem_of_find?_eq_some found), of_decide_eq_true same⟩

theorem srdInstFindByIdStack_isSome {stack di : Nat}
    (member : di ∈ stack :: s.library.nextDi stack) (same : s.instId di = instId) :
    (s.srdInstFindByIdStack instId stack).isSome = true := by
  unfold srdInstFindByIdStack
  split
  · rfl
  · next other =>
      rcases mem_cons.mp member with rfl | stacked
      · exact absurd same other
      · exact find?_isSome.mpr ⟨di, stacked, decide_eq_true same⟩

theorem srdInstFindById_some (found : s.srdInstFindById sess instId = some di) :
    di ∈ s.lookedAt sess ∧ s.instId di = instId := by
  obtain ⟨stack, listed, inStack⟩ := exists_of_findSome?_eq_some found
  obtain ⟨member, same⟩ := srdInstFindByIdStack_some inStack
  exact ⟨mem_flatMap.mpr ⟨stack, listed, member⟩, same⟩

theorem srdInstFindById_isSome : (s.srdInstFindById sess instId).isSome = true ↔
      ∃ di ∈ s.lookedAt sess, s.instId di = instId := by
  constructor
  · intro isSome
    obtain ⟨di, found⟩ := Option.isSome_iff_exists.mp isSome
    exact ⟨di, srdInstFindById_some found⟩
  · rintro ⟨di, member, same⟩
    obtain ⟨stack, listed, inStack⟩ := mem_flatMap.mp member
    rw [srdInstFindById, findSome?_isSome_iff]
    exact ⟨stack, listed, srdInstFindByIdStack_isSome inStack same⟩

theorem toString_injective {i j : Nat} (same : toString i = toString j) : i = j := by
  have digits : Nat.toDigits 10 i = Nat.toDigits 10 j := by
    have texts := congrArg String.toList same
    exact Nat.toList_repr.symm.trans (texts.trans Nat.toList_repr)
  have values := congrArg (fun cs => Nat.ofDigitChars 10 cs 0) digits
  exact Nat.ofDigitChars_ten_toDigits.symm.trans (values.trans Nat.ofDigitChars_ten_toDigits)

theorem numberedId_injective (decoderId : String) : Function.Injective (numberedId decoderId) := by
  intro i j same
  have texts := congrArg String.toList same
  unfold numberedId at texts
  simp only [String.toList_append] at texts
  exact toString_injective (String.toList_inj.mp (append_cancel_left texts))

theorem uniqueId_found (decoderId : String) {rounds i : Nat}
    (found : (s.srdInstFindById sess (s.uniqueId sess decoderId rounds i)).isSome = true) :
    ∀ j, i ≤ j → j ≤ i + rounds →
      (s.srdInstFindById sess (numberedId decoderId j)).isSome = true := by
  induction rounds generalizing i with
  | zero =>
      intro j low high
      obtain rfl : j = i := by omega
      exact found
  | succ rounds ih =>
      rw [uniqueId] at found
      split at found
      · next taken =>
          intro j low high
          rcases Nat.eq_or_lt_of_le low with rfl | later
          · exact taken
          · exact ih found j later (by omega)
      · next free => exact absurd found free

theorem uniqueId_free (decoderId : String) :
    s.srdInstFindById sess (s.uniqueId sess decoderId (s.lookedAt sess).length 1) = none := by
  rw [← Option.not_isSome_iff_eq_none]
  intro found
  have taken := uniqueId_found decoderId found
  have distinct : ((range ((s.lookedAt sess).length + 1)).map fun i =>
      numberedId decoderId (i + 1)).Nodup := by
    refine Nodup.map ?_ nodup_range
    intro i j same
    exact Nat.add_right_cancel (numberedId_injective decoderId same)
  have inside : ((range ((s.lookedAt sess).length + 1)).map fun i =>
      numberedId decoderId (i + 1)) ⊆ (s.lookedAt sess).map s.instId := by
    intro instId member
    obtain ⟨i, below, rfl⟩ := mem_map.mp member
    have small := mem_range.mp below
    obtain ⟨di, looked, same⟩ :=
      srdInstFindById_isSome.mp (taken (i + 1) (by omega) (by omega))
    exact mem_map.mpr ⟨di, looked, same⟩
  have fits := (subperm_of_subset distinct inside).length_le
  rw [length_map, length_map, length_range] at fits
  omega

theorem findSession_updateSession (library : LibraryState) (sess : Nat)
    (update : List Nat → List Nat) :
    (library.updateSession sess update).find? (fun x => x.sessionId = sess) =
      (library.findSession sess).map fun x => { x with diList := update x.diList } := by
  unfold updateSession findSession
  induction library.sessions with
  | nil => rfl
  | cons x sessions ih =>
      rw [map_cons, find?_cons, find?_cons]
      by_cases here : x.sessionId = sess
      · simp [here]
      · simp only [here, if_false, decide_false]
        exact ih

theorem diList_addInst (s : NamedInstances) {sess : Nat}
    (found : s.library.findSession sess = some x) (d : SrdDecoder) (instId : Nat → String) :
    diList ⟨s.library.addInst sess d, instId⟩ sess = s.diList sess ++ [s.library.allocated] := by
  have after := findSession_updateSession s.library sess fun diList =>
    diList ++ [s.library.allocated]
  rw [found] at after
  unfold diList
  rw [found]
  exact congrArg (fun x => (Option.map SrdSession.diList x).getD []) after

theorem diList_link (s : NamedInstances) {sess : Nat}
    (found : s.library.findSession sess = some x) (diBottom diTop : Nat) (instId : Nat → String) :
    diList ⟨s.library.link sess diBottom diTop, instId⟩ sess = (s.diList sess).erase diTop := by
  have after := findSession_updateSession s.library sess fun diList => diList.erase diTop
  rw [found] at after
  unfold diList
  rw [found]
  exact congrArg (fun x => (Option.map SrdSession.diList x).getD []) after

/-- What holds as long as every instance is looked at. -/
structure Sound (sess : Nat) (s : NamedInstances) : Prop where
  session : (s.library.findSession sess).isSome = true
  listed : ∀ di ∈ s.diList sess, s.Live sess di
  stacked : ∀ di, s.Live sess di → ∀ top ∈ s.library.nextDi di, s.Live sess top
  once : (s.diList sess).Nodup
  reached : ∀ di, s.Live sess di → di ∈ s.lookedAt sess
  unique : ∀ first second, s.Live sess first → s.Live sess second →
    s.instId first = s.instId second → first = second

theorem Sound.ids (sound : Sound sess s) : IdsUniqueAndFound sess s :=
  ⟨sound.unique, fun di live =>
    srdInstFindById_isSome.mpr ⟨di, sound.reached di live, rfl⟩⟩

theorem IdsUniqueAndFound.lookedAt (ids : IdsUniqueAndFound sess s)
    (inside : ∀ di ∈ s.lookedAt sess, s.Live sess di) (live : s.Live sess di) :
    di ∈ s.lookedAt sess := by
  obtain ⟨other, looked, same⟩ := srdInstFindById_isSome.mp (ids.found di live)
  rw [← ids.unique other di (inside other looked) live same]
  exact looked

/-! ## New instances -/

def Creates (s : NamedInstances) (sess : Nat) (decoderId : String) (accepted : Bool) : Prop :=
  (s.library.findSession sess).isSome = true ∧
    (s.library.srdDecoderGetById decoderId).isSome = true ∧ accepted = true

theorem srdInstNew_cases (s : NamedInstances) (sess : Nat) (decoderId : String)
    (given : Option String) (accepted : Bool) :
    (s.Creates sess decoderId accepted ∧ ∃ x d, s.library.findSession sess = some x ∧
        s.srdInstNew sess decoderId given accepted = ⟨s.library.addInst sess d,
            Function.update s.instId s.library.allocated (s.newId sess decoderId given)⟩) ∨
      (¬s.Creates sess decoderId accepted ∧ s.srdInstNew sess decoderId given accepted = ⟨s.library,
            Function.update s.instId s.library.allocated (s.newId sess decoderId given)⟩) := by
  unfold Creates srdInstNew LibraryState.srdInstNew
  cases session : s.library.findSession sess with
  | none =>
      right
      refine ⟨fun creates => Bool.false_ne_true creates.1, ?_⟩
      dsimp only
  | some x =>
      cases decoder : s.library.srdDecoderGetById decoderId with
      | none =>
          right
          refine ⟨fun creates => Bool.false_ne_true creates.2.1, ?_⟩
          dsimp only
      | some d =>
          cases accepted with
          | true => exact Or.inl ⟨⟨rfl, rfl, rfl⟩, x, d, rfl, rfl⟩
          | false => exact Or.inr ⟨fun creates => Bool.false_ne_true creates.2.2, rfl⟩

theorem live_addInst (s : NamedInstances) (sess : Nat) (d : SrdDecoder) (instId : Nat → String)
    (di : Nat) :
    Live ⟨s.library.addInst sess d, instId⟩ sess di ↔
      s.Live sess di ∨ di = s.library.allocated := by
  unfold Live Alive
  rw [instances_addInst]
  show (di < s.library.allocated + 1 ∧ _) ∧ _ ↔ _
  by_cases new : di = s.library.allocated
  · rw [if_pos new]
    exact iff_of_true ⟨⟨by omega, rfl⟩, rfl⟩ (Or.inr new)
  · rw [if_neg new, or_iff_left new]
    have below : di < s.library.allocated + 1 ↔ di < s.library.allocated := by omega
    rw [below]

theorem Live.ne_allocated (live : s.Live sess di) : di ≠ s.library.allocated :=
  Nat.ne_of_lt live.1.1

/-- No instance of the session has the identifier that a new one is to get. -/
def FreshId (s : NamedInstances) (sess : Nat) (instId : String) : Prop :=
  ∀ di, s.Live sess di → s.instId di ≠ instId

theorem Sound.freshId_unique (sound : Sound sess s) (decoderId : String) :
    s.FreshId sess (s.uniqueId sess decoderId (s.lookedAt sess).length 1) := by
  intro di live same
  have found := srdInstFindById_isSome.mpr ⟨di, sound.reached di live, same⟩
  rw [uniqueId_free] at found
  exact Bool.false_ne_true found

theorem Sound.addInst (sound : Sound sess s)
    (found : s.library.findSession sess = some x) (d : SrdDecoder)
    (fresh : s.FreshId sess instId) :
    Sound sess ⟨s.library.addInst sess d,
      Function.update s.instId s.library.allocated instId⟩ := by
  have lists := diList_addInst s found d (Function.update s.instId s.library.allocated instId)
  have newIsLive := (live_addInst s sess d
    (Function.update s.instId s.library.allocated instId) s.library.allocated).mpr (Or.inr rfl)
  constructor
  · have after := findSession_updateSession s.library sess fun diList =>
      diList ++ [s.library.allocated]
    rw [found] at after
    exact congrArg Option.isSome after
  · intro di listed
    rw [lists, mem_append, mem_singleton] at listed
    rw [live_addInst]
    exact listed.imp_left (sound.listed di)
  · intro di live top stacked
    rw [live_addInst] at live ⊢
    rcases live with old | rfl
    · rw [nextDi_addInst sess d old.ne_allocated] at stacked
      exact Or.inl (sound.stacked di old top stacked)
    · rw [nextDi_addInst_new] at stacked
      exact absurd stacked not_mem_nil
  · rw [lists, nodup_append]
    refine ⟨sound.once, nodup_singleton _, fun di listed new member same => ?_⟩
    rw [mem_singleton] at member
    exact (sound.listed di listed).ne_allocated (same.trans member)
  · intro di live
    rw [mem_lookedAt, lists]
    rw [live_addInst] at live
    rcases live with old | rfl
    · rcases mem_lookedAt.mp (sound.reached di old) with listed | ⟨root, listed, stacked⟩
      · exact Or.inl (mem_append_left _ listed)
      · refine Or.inr ⟨root, mem_append_left _ listed, ?_⟩
        rw [nextDi_addInst sess d (sound.listed root listed).ne_allocated]
        exact stacked
    · exact Or.inl (mem_append_right _ mem_cons_self)
  · intro first second firstLive secondLive same
    rw [live_addInst] at firstLive secondLive
    dsimp only at same
    rcases firstLive with firstOld | rfl
    · rw [Function.update_of_ne firstOld.ne_allocated] at same
      rcases secondLive with secondOld | rfl
      · rw [Function.update_of_ne secondOld.ne_allocated] at same
        exact sound.unique first second firstOld secondOld same
      · rw [Function.update_self] at same
        exact absurd same (fresh first firstOld)
    · rw [Function.update_self] at same
      rcases secondLive with secondOld | rfl
      · rw [Function.update_of_ne secondOld.ne_allocated] at same
        exact absurd same.symm (fresh second secondOld)
      · rfl

theorem Sound.update_instId (sound : Sound sess s) (instId : String) :
    Sound sess ⟨s.library, Function.update s.instId s.library.allocated instId⟩ := by
  refine { sound with unique := ?_ }
  intro first second firstLive secondLive same
  dsimp only at same
  rw [Function.update_of_ne (Live.ne_allocated firstLive),
    Function.update_of_ne (Live.ne_allocated secondLive)] at same
  exact sound.unique first second firstLive secondLive same

/-- Behind the call the upper instance is directly on one of the list, and so is everything that
is directly on it, unless that is in the list itself. -/
def StaysLookedAt (s : NamedInstances) (sess diBottom diTop : Nat) : Prop :=
  (diBottom ∈ (s.diList sess).erase diTop ∨
      ∃ root ∈ (s.diList sess).erase diTop, diTop ∈ s.library.nextDi root) ∧
    ∀ di ∈ s.library.nextDi diTop, di ≠ diTop → di ∈ (s.diList sess).erase diTop ∨
      ∃ root ∈ (s.diList sess).erase diTop, di ∈ s.library.nextDi root

theorem live_link (s : NamedInstances) (sess diBottom diTop : Nat) (instId : Nat → String)
    (di : Nat) : Live ⟨s.library.link sess diBottom diTop, instId⟩ sess di ↔ s.Live sess di := by
  unfold Live Alive
  rw [freed_link, sess_link]
  rfl

variable {diBottom diTop : Nat}

theorem mem_nextDi_link {library : LibraryState} {sess di root : Nat} :
    di ∈ (library.link sess diBottom diTop).nextDi root ↔
      di ∈ library.nextDi root ∨ root = diBottom ∧ di = diTop := by
  by_cases bottom : root = diBottom
  · subst bottom
    rw [nextDi_link_bottom, mem_append, mem_singleton, and_iff_right rfl]
  · rw [nextDi_link sess diTop bottom]
    exact (or_iff_left fun both => bottom both.1).symm

theorem mem_lookedAt_link (found : s.library.findSession sess = some x) (diBottom diTop : Nat) :
    di ∈ lookedAt ⟨s.library.link sess diBottom diTop, s.instId⟩ sess ↔
      di ∈ (s.diList sess).erase diTop ∨
        (∃ root ∈ (s.diList sess).erase diTop, di ∈ s.library.nextDi root) ∨
          di = diTop ∧ diBottom ∈ (s.diList sess).erase diTop := by
  rw [mem_lookedAt, diList_link s found]
  refine or_congr_right ?_
  constructor
  · rintro ⟨root, listed, stacked⟩
    rcases mem_nextDi_link.mp stacked with old | ⟨rfl, new⟩
    · exact Or.inl ⟨root, listed, old⟩
    · exact Or.inr ⟨new, listed⟩
  · rintro (⟨root, listed, stacked⟩ | ⟨new, listed⟩)
    · exact ⟨root, listed, mem_nextDi_link.mpr (Or.inl stacked)⟩
    · exact ⟨diBottom, listed, mem_nextDi_link.mpr (Or.inr ⟨rfl, new⟩)⟩

theorem Sound.link (sound : Sound sess s) (topLive : s.Live sess diTop)
    (stays : s.StaysLookedAt sess diBottom diTop) :
    Sound sess ⟨s.library.link sess diBottom diTop, s.instId⟩ := by
  obtain ⟨x, found⟩ := Option.isSome_iff_exists.mp sound.session
  have lists := diList_link s found diBottom diTop s.instId
  constructor
  · have after := findSession_updateSession s.library sess fun diList => diList.erase diTop
    rw [found] at after
    exact congrArg Option.isSome after
  · intro di listed
    rw [lists] at listed
    rw [live_link]
    exact sound.listed di (mem_of_mem_erase listed)
  · intro di live top stacked
    rw [live_link] at live ⊢
    rcases mem_nextDi_link.mp stacked with old | ⟨-, rfl⟩
    · exact sound.stacked di live top old
    · exact topLive
  · rw [lists]
    exact sound.once.erase diTop
  · intro di live
    rw [live_link] at live
    rw [mem_lookedAt_link found]
    by_cases top : di = diTop
    · subst top
      rcases stays.1 with bottom | stacked
      · exact Or.inr (Or.inr ⟨rfl, bottom⟩)
      · exact Or.inr (Or.inl stacked)
    · by_cases onTop : di ∈ s.library.nextDi diTop
      · rcases stays.2 di onTop top with listed | stacked
        · exact Or.inl listed
        · exact Or.inr (Or.inl stacked)
      · rcases mem_lookedAt.mp (sound.reached di live) with listed | ⟨root, listed, stacked⟩
        · exact Or.inl ((mem_erase_of_ne top).mpr listed)
        · have other : root ≠ diTop := fun same => onTop (same ▸ stacked)
          exact Or.inr (Or.inl ⟨root, (mem_erase_of_ne other).mpr listed, stacked⟩)
  · intro first second firstLive secondLive same
    rw [live_link] at firstLive secondLive
    exact sound.unique first second firstLive secondLive same

theorem Sound.link_breaks (sound : Sound sess s) (topLive : s.Live sess diTop)
    (ids : IdsUniqueAndFound sess ⟨s.library.link sess diBottom diTop, s.instId⟩) :
    s.StaysLookedAt sess diBottom diTop := by
  obtain ⟨x, found⟩ := Option.isSome_iff_exists.mp sound.session
  have inside : ∀ di ∈ lookedAt ⟨s.library.link sess diBottom diTop, s.instId⟩ sess,
      Live ⟨s.library.link sess diBottom diTop, s.instId⟩ sess di := by
    intro di looked
    rw [live_link]
    rcases (mem_lookedAt_link found diBottom diTop).mp looked with
      listed | ⟨root, listed, stacked⟩ | ⟨rfl, -⟩
    · exact sound.listed di (mem_of_mem_erase listed)
    · exact sound.stacked root (sound.listed root (mem_of_mem_erase listed)) di stacked
    · exact topLive
  have reached : ∀ di, s.Live sess di →
      di ∈ lookedAt ⟨s.library.link sess diBottom diTop, s.instId⟩ sess :=
    fun di live => ids.lookedAt inside ((live_link s sess diBottom diTop s.instId di).mpr live)
  constructor
  · rcases (mem_lookedAt_link found diBottom diTop).mp (reached diTop topLive) with
      listed | stacked | ⟨-, bottom⟩
    · exact absurd listed sound.once.not_mem_erase
    · exact Or.inr stacked
    · exact Or.inl bottom
  · intro di onTop other
    rcases (mem_lookedAt_link found diBottom diTop).mp
        (reached di (sound.stacked diTop topLive di onTop)) with listed | stacked | ⟨top, -⟩
    · exact Or.inl listed
    · exact Or.inr stacked
    · exact absurd top other

/-- No identifier is chosen twice, and a stack that is accepted leaves every instance in the list
or directly on one of the list. -/
def KeepsFound (sess : Nat) (s : NamedInstances) : SessionCall → Prop
  | .instNew decoderId given accepted => ∀ instId, given = some instId →
      s.Creates sess decoderId accepted → s.FreshId sess instId
  | .instStack diBottom diTop => s.Live sess diBottom → s.Live sess diTop →
      s.library.StackCall sess diBottom diTop → s.StaysLookedAt sess diBottom diTop

theorem Sound.apply (sound : Sound sess s) {call : SessionCall} (keeps : KeepsFound sess s call) :
    Sound sess (s.apply sess call) := by
  cases call with
  | instNew decoderId given accepted =>
      show Sound sess (s.srdInstNew sess decoderId given accepted)
      rcases s.srdInstNew_cases sess decoderId given accepted with
        ⟨creates, x, d, found, same⟩ | ⟨-, same⟩
      · rw [same]
        refine sound.addInst found d ?_
        cases given with
        | none => exact sound.freshId_unique decoderId
        | some instId => exact keeps instId rfl creates
      · rw [same]
        exact sound.update_instId _
  | instStack diBottom diTop =>
      show Sound sess (s.srdInstStack sess diBottom diTop)
      unfold srdInstStack LibraryState.srdInstStack
      split
      · next live =>
          split
          · next call => exact sound.link live.2 (keeps live.1 live.2 call)
          · exact sound
      · exact sound

theorem Sound.apply_breaks (sound : Sound sess s) {call : SessionCall}
    (breaks : ¬KeepsFound sess s call) : ¬IdsUniqueAndFound sess (s.apply sess call) := by
  intro ids
  refine breaks ?_
  cases call with
  | instNew decoderId given accepted =>
      intro instId chosen creates di live same
      rcases s.srdInstNew_cases sess decoderId given accepted with
        ⟨-, x, d, -, created⟩ | ⟨refused, -⟩
      · have chosenId : s.newId sess decoderId given = instId := by
          rw [newId, chosen]
          rfl
        rw [chosenId] at created
        rw [show s.apply sess (.instNew decoderId given accepted) = _ from created] at ids
        refine live.ne_allocated (ids.unique di s.library.allocated ?_ ?_ ?_)
        · exact (live_addInst ..).mpr (Or.inl live)
        · exact (live_addInst ..).mpr (Or.inr rfl)
        · dsimp only
          rw [Function.update_of_ne live.ne_allocated, Function.update_self, same]
      · exact refused creates
  | instStack diBottom diTop =>
      intro bottomLive topLive call
      refine sound.link_breaks topLive ?_
      have stacked : s.apply sess (.instStack diBottom diTop) =
          ⟨s.library.link sess diBottom diTop, s.instId⟩ := by
        show s.srdInstStack sess diBottom diTop = _
        rw [srdInstStack, if_pos ⟨bottomLive, topLive⟩, LibraryState.srdInstStack, if_pos call]
      rwa [stacked] at ids

theorem ids_separate (sess : Nat) :
    Separates (apply sess) (Sound sess) (IdsUniqueAndFound sess) (KeepsFound sess) where
  holds sound := sound.ids
  keeps sound keeps := sound.apply keeps
  breaks sound breaks := sound.apply_breaks breaks

/-- In a new session identifiers are unique and found throughout a run exactly if every instance
stays in the list of the session or directly on one of the list. -/
theorem ids_throughout_iff {s : NamedInstances} {sess : Nat}
    (session : (s.library.findSession sess).isSome = true) (empty : s.diList sess = [])
    (new : ∀ di, ¬s.Live sess di) (calls : List SessionCall) :
    HoldsThroughout (apply sess) (IdsUniqueAndFound sess) s calls ↔
      EveryStep (apply sess) (KeepsFound sess) s calls := by
  refine (ids_separate sess).throughout_iff ⟨session, ?_, ?_, ?_, ?_, ?_⟩ calls
  · rw [empty]
    exact fun di listed => absurd listed not_mem_nil
  · exact fun di live => absurd live (new di)
  · rw [empty]
    exact nodup_nil
  · exact fun di live => absurd live (new di)
  · exact fun first _ live => absurd live (new first)

def newSession : NamedInstances where
  library := [LibraryState.LibraryOperation.cDecoderLoad "/lib/uart_c.so"
    (LibraryState.plainPlugin "uart_c"), .sessionNew].foldl LibraryState.apply
      (LibraryState.start [])
  instId _ := ""

/-- Three instances, the second on the first, and the third on the second. -/
def threeStacked : List SessionCall :=
  [.instNew "uart_c" none true, .instNew "uart_c" none true, .instNew "uart_c" none true,
    .instStack 0 1, .instStack 1 2]

def fourthInstance : List SessionCall :=
  threeStacked ++ [NamedInstances.SessionCall.instNew "uart_c" none true]

theorem newSession_empty (di : Nat) : ¬newSession.Live 1 di := fun live =>
  Nat.not_lt_zero di live.1.1

theorem ids_throughout_iff_twoInstances : HoldsThroughout (apply 1) (IdsUniqueAndFound 1) newSession
        [.instNew "uart_c" none true, .instNew "uart_c" none true, .instStack 0 1] ↔
      EveryStep (apply 1) (KeepsFound 1) newSession
        [.instNew "uart_c" none true, .instNew "uart_c" none true, .instStack 0 1] :=
  ids_throughout_iff (by decide +kernel) (by decide +kernel) newSession_empty _

/-- The third instance is not found, and its identifier is given to a fourth. -/
theorem threeStacked_notFound : (threeStacked.foldl (apply 1) newSession).Live 1 2 ∧
      (threeStacked.foldl (apply 1) newSession).instId 2 = "uart_c-3" ∧
      (threeStacked.foldl (apply 1) newSession).srdInstFindById 1 "uart_c-3" = none ∧
      (fourthInstance.foldl (apply 1) newSession).Live 1 3 ∧
      (fourthInstance.foldl (apply 1) newSession).instId 3 = "uart_c-3" ∧
      ¬IdsUniqueAndFound 1 (threeStacked.foldl (apply 1) newSession) := by
  have live : (threeStacked.foldl (apply 1) newSession).Live 1 2 := by decide +kernel
  have named : (threeStacked.foldl (apply 1) newSession).instId 2 = "uart_c-3" := by
    decide +kernel
  have missed : (threeStacked.foldl (apply 1) newSession).srdInstFindById 1 "uart_c-3" = none := by
    decide +kernel
  refine ⟨live, named, missed, by decide +kernel, by decide +kernel, fun ids => ?_⟩
  have found := ids.found 2 live
  rw [named, missed] at found
  exact Bool.false_ne_true found

end NamedInstances

end SigrokDecode
