import SigrokDecode.Session.StackForests

/-!
# Pointers to instances

Which calls leave no session with a pointer to an instance that has been freed.
-/

set_option linter.dupNamespace false

namespace SigrokDecode

open Foundation List

namespace LibraryState

def Referred (s : LibraryState) (di : Nat) : Prop :=
  Reaches s.nextDi (fun root => ∃ x ∈ s.sessions, root ∈ x.diList) di

structure NoDangling (s : LibraryState) : Prop where
  alive : ∀ di, s.Referred di → s.Alive di
  once : ∀ di < s.allocated, (s.instances di).freed ≤ 1
  destroyed : ∀ di < s.allocated, (∀ x ∈ s.sessions, x.sessionId ≠ (s.instances di).sess) →
    (s.instances di).freed = 1

structure Owned (s : LibraryState) : Prop extends s.Numbered, s.NoDangling where
  lists : ∀ x ∈ s.sessions, x.diList.Nodup
  mine : ∀ x ∈ s.sessions, ∀ di ∈ x.diList, (s.instances di).sess = x.sessionId

variable {s t : LibraryState}

variable {x : SrdSession}

variable {di sess diBottom diTop : Nat}

theorem Owned.alive_of_listed (owned : s.Owned) (stored : x ∈ s.sessions) (listed : di ∈ x.diList) : s.Alive di :=
  owned.alive di (.root ⟨x, stored, listed⟩)

theorem SameLists.owned (same : SameLists s t) (owned : s.Owned) : t.Owned := by
  have edges : t.nextDi = s.nextDi := funext same.nextDi
  refine ⟨same.numbered owned.toNumbered, ⟨?_, ?_, ?_⟩, ?_, ?_⟩
  · intro di referred
    unfold Referred at referred
    rw [edges, same.sessions] at referred
    exact (same.alive_iff di).mpr (owned.alive di referred)
  · intro di below
    rw [same.allocated] at below
    rw [same.freed]
    exact owned.once di below
  · intro di below gone
    rw [same.allocated] at below
    rw [same.sessions, same.sess] at gone
    rw [same.freed]
    exact owned.destroyed di below gone
  · rw [same.sessions]
    exact owned.lists
  · intro x stored di listed
    rw [same.sessions] at stored
    rw [same.sess]
    exact owned.mine x stored di listed

theorem Owned.srdSessionNew (owned : s.Owned) : s.srdSessionNew.Owned := by
  refine ⟨owned.toNumbered.srdSessionNew, ⟨?_, owned.once, ?_⟩, ?_, ?_⟩
  · intro di referred
    refine owned.alive di (Reaches.of_roots referred ?_)
    rintro root ⟨x, member, listed⟩
    rcases mem_append.mp member with old | new
    · exact .root ⟨x, old, listed⟩
    · rw [mem_singleton.mp new] at listed
      exact absurd listed not_mem_nil
  · intro di below gone
    exact owned.destroyed di below fun x member => gone x (mem_append_left _ member)
  · intro x member
    rcases mem_append.mp member with old | new
    · exact owned.lists x old
    · rw [mem_singleton.mp new]
      exact nodup_nil
  · intro x member di listed
    rcases mem_append.mp member with old | new
    · exact owned.mine x old di listed
    · rw [mem_singleton.mp new] at listed
      exact absurd listed not_mem_nil

theorem listed_addInst {d : SrdDecoder} (stored : x ∈ (s.addInst sess d).sessions) :
    ∃ y ∈ s.sessions, x.sessionId = y.sessionId ∧
      (x.diList = y.diList ∨ y.sessionId = sess ∧ x.diList = y.diList ++ [s.allocated]) := by
  obtain ⟨y, earlier, rfl⟩ := mem_addInst.mp stored
  refine ⟨y, earlier, sessionId_ite _ _ _, ?_⟩
  split
  · rename_i here
    exact .inr ⟨here, rfl⟩
  · exact .inl rfl

theorem referred_addInst {d : SrdDecoder}
    (referred : (s.addInst sess d).Referred di) : s.Referred di ∨ di = s.allocated := by
  induction referred with
  | @root di listed =>
      obtain ⟨x, stored, listed⟩ := listed
      obtain ⟨y, earlier, -, same | ⟨-, longer⟩⟩ := listed_addInst stored
      · rw [same] at listed
        exact .inl (.root ⟨y, earlier, listed⟩)
      · rw [longer] at listed
        rcases mem_append.mp listed with old | new
        · exact .inl (.root ⟨y, earlier, old⟩)
        · exact .inr (mem_singleton.mp new)
  | @step di above _ held ih =>
      by_cases new : di = s.allocated
      · rw [new, nextDi_addInst_new] at held
        exact absurd held not_mem_nil
      · rw [nextDi_addInst sess d new] at held
        exact .inl (.step (ih.resolve_right new) held)

theorem Owned.addInst (owned : s.Owned)
    (found : s.findSession sess = some x) (d : SrdDecoder) : (s.addInst sess d).Owned := by
  obtain ⟨stored, number⟩ := findSession_some found
  have old : ∀ di, di < s.allocated → (s.addInst sess d).instances di = s.instances di := by
    intro di below
    rw [instances_addInst, if_neg (Nat.ne_of_lt below)]
  have new : (s.addInst sess d).instances s.allocated = createInst d sess := by
    rw [instances_addInst, if_pos rfl]
  refine ⟨owned.toNumbered.addInst found d, ⟨?_, ?_, ?_⟩, ?_, ?_⟩
  · intro di referred
    rcases referred_addInst referred with before | rfl
    · obtain ⟨below, unfreed⟩ := owned.alive di before
      exact ⟨Nat.lt_succ_of_lt below, (congrArg StackInst.freed (old di below)).trans unfreed⟩
    · exact ⟨Nat.lt_succ_self _, congrArg StackInst.freed new⟩
  · intro di below
    rcases Nat.lt_succ_iff_lt_or_eq.mp below with earlier | rfl
    · rw [old di earlier]
      exact owned.once di earlier
    · rw [new]
      exact Nat.zero_le 1
  · intro di below gone
    rcases Nat.lt_succ_iff_lt_or_eq.mp below with earlier | rfl
    · rw [old di earlier] at gone ⊢
      refine owned.destroyed di earlier fun y member same => ?_
      refine gone _ (mem_addInst.mpr ⟨y, member, rfl⟩) ?_
      rw [sessionId_ite]
      exact same
    · refine absurd ?_ (gone _ (mem_addInst.mpr ⟨x, stored, rfl⟩))
      rw [sessionId_ite, new]
      exact number
  · intro y member
    obtain ⟨z, earlier, -, same | ⟨-, longer⟩⟩ := listed_addInst member
    · rw [same]
      exact owned.lists z earlier
    · rw [longer]
      refine nodup_append.mpr ⟨owned.lists z earlier, nodup_singleton _, ?_⟩
      rintro di listed other single rfl
      have below := (owned.alive_of_listed earlier listed).1
      rw [mem_singleton.mp single] at below
      exact Nat.lt_irrefl _ below
  · intro y member di listed
    obtain ⟨z, earlier, number, same | ⟨here, longer⟩⟩ := listed_addInst member
    · rw [same] at listed
      rw [number, old di (owned.alive_of_listed earlier listed).1]
      exact owned.mine z earlier di listed
    · rw [longer] at listed
      rw [number]
      rcases mem_append.mp listed with before | last
      · rw [old di (owned.alive_of_listed earlier before).1]
        exact owned.mine z earlier di before
      · rw [mem_singleton.mp last, new]
        exact here.symm

/-- What is on the lists when `diTop` has been taken off that of the session. -/
def ListedWithout (s : LibraryState) (sess diTop : Nat) (root : Nat) : Prop :=
  ∃ x ∈ s.sessions, root ∈ if x.sessionId = sess then x.diList.erase diTop else x.diList

theorem listed_link_iff {root : Nat} :
    (∃ x ∈ (s.link sess diBottom diTop).sessions, root ∈ x.diList) ↔
      s.ListedWithout sess diTop root := by
  constructor
  · rintro ⟨x, stored, listed⟩
    obtain ⟨y, earlier, rfl⟩ := mem_link.mp stored
    refine ⟨y, earlier, ?_⟩
    split at listed
    · rename_i here
      rw [if_pos here]
      exact listed
    · rename_i there
      rw [if_neg there]
      exact listed
  · rintro ⟨y, earlier, listed⟩
    refine ⟨_, mem_link.mpr ⟨y, earlier, rfl⟩, ?_⟩
    split
    · rename_i here
      rw [if_pos here] at listed
      exact listed
    · rename_i there
      rw [if_neg there] at listed
      exact listed

theorem referred_link_iff : (s.link sess diBottom diTop).Referred di ↔
      Reaches s.nextDi (s.ListedWithout sess diTop) di ∨
        (Reaches s.nextDi (s.ListedWithout sess diTop) diBottom ∧
          Reaches s.nextDi (· = diTop) di) := by
  unfold Referred
  rw [show (fun root => ∃ x ∈ (s.link sess diBottom diTop).sessions, root ∈ x.diList) =
    s.ListedWithout sess diTop from funext fun root => propext listed_link_iff]
  exact reaches_link_iff (fun di => nextDi_link _ _) (nextDi_link_bottom _ _ _)

theorem referred_of_without
    (reached : Reaches s.nextDi (s.ListedWithout sess diTop) di) : s.Referred di := by
  refine reached.of_roots fun root listed => ?_
  obtain ⟨x, stored, listed⟩ := listed
  refine .root ⟨x, stored, ?_⟩
  split at listed
  · exact mem_of_mem_erase listed
  · exact listed

theorem alive_link_iff (sess diBottom diTop di : Nat) :
    (s.link sess diBottom diTop).Alive di ↔ s.Alive di := by
  unfold Alive
  rw [freed_link]
  exact Iff.rfl

/-- Where the instance below is in use, everything above the other one is there. -/
def StacksAlive (s : LibraryState) (sess diBottom diTop : Nat) : Prop :=
  Reaches s.nextDi (s.ListedWithout sess diTop) diBottom →
    ∀ di, Reaches s.nextDi (· = diTop) di → s.Alive di

theorem Owned.link (owned : s.Owned)
    (keeps : s.StacksAlive sess diBottom diTop) : (s.link sess diBottom diTop).Owned := by
  refine ⟨owned.toNumbered.link _ _ _, ⟨?_, ?_, ?_⟩, ?_, ?_⟩
  · intro di referred
    rw [alive_link_iff]
    rcases referred_link_iff.mp referred with before | ⟨bottom, above⟩
    · exact owned.alive di (referred_of_without before)
    · exact keeps bottom di above
  · intro di below
    rw [freed_link]
    exact owned.once di below
  · intro di below gone
    rw [freed_link]
    refine owned.destroyed di below fun x stored same => ?_
    refine gone _ (mem_link.mpr ⟨x, stored, rfl⟩) ?_
    rw [sessionId_ite, sess_link]
    exact same
  · intro x stored
    obtain ⟨y, earlier, rfl⟩ := mem_link.mp stored
    split
    · exact (owned.lists y earlier).erase diTop
    · exact owned.lists y earlier
  · intro x stored di listed
    obtain ⟨y, earlier, rfl⟩ := mem_link.mp stored
    rw [sess_link, sessionId_ite]
    refine owned.mine y earlier di ?_
    split at listed
    · exact mem_of_mem_erase listed
    · exact listed

theorem link_breaks_alive (breaks : ¬s.StacksAlive sess diBottom diTop) :
    ¬(s.link sess diBottom diTop).NoDangling := by
  intro safe
  refine breaks fun bottom di above => ?_
  rw [← alive_link_iff sess diBottom diTop]
  exact safe.alive di (referred_link_iff.mpr (.inr ⟨bottom, above⟩))

def OwnsAlone (s : LibraryState) (x : SrdSession) : Prop :=
  (∀ di, s.Holds x di → di ∈ x.diList) ∧ ∀ di ∈ x.diList,
      ¬Reaches s.nextDi (fun root => ∃ y ∈ s.sessions.erase x, root ∈ y.diList) di

theorem Owned.destroy (owned : s.Owned) (stored : x ∈ s.sessions) (alone : s.OwnsAlone x) :
    ({ s with sessions := s.sessions.erase x }.srdInstFreeAll x).Owned := by
  refine ⟨owned.toNumbered.destroy x, ⟨?_, ?_, ?_⟩, ?_, ?_⟩
  · intro di referred
    have before : s.Referred di := by
      refine Reaches.of_roots referred ?_
      rintro root ⟨y, member, listed⟩
      exact .root ⟨y, mem_of_mem_erase member, listed⟩
    obtain ⟨below, unfreed⟩ := owned.alive di before
    refine ⟨below, ?_⟩
    change (s.instances di).freed + x.diList.count di = 0
    rw [unfreed, count_eq_zero_of_not_mem fun listed => alone.2 di listed referred]
  · intro di below
    change (s.instances di).freed + x.diList.count di ≤ 1
    by_cases listed : di ∈ x.diList
    · refine Nat.le_of_eq ?_
      rw [(owned.alive_of_listed stored listed).2,
        count_eq_one_of_mem (owned.lists x stored) listed]
    · rw [count_eq_zero_of_not_mem listed]
      exact owned.once di below
  · intro di below gone
    change (s.instances di).freed + x.diList.count di = 1
    by_cases own : (s.instances di).sess = x.sessionId
    · by_cases unfreed : (s.instances di).freed = 0
      · rw [unfreed, count_eq_one_of_mem (owned.lists x stored)
          (alone.1 di ⟨⟨below, unfreed⟩, own⟩)]
      · have once := owned.once di below
        have unlisted : di ∉ x.diList := fun listed =>
          unfreed (owned.alive_of_listed stored listed).2
        rw [count_eq_zero_of_not_mem unlisted]
        omega
    · have unlisted : di ∉ x.diList := fun listed => own (owned.mine x stored di listed)
      rw [count_eq_zero_of_not_mem unlisted]
      refine owned.destroyed di below fun y member same => ?_
      refine gone y ((mem_erase_iff owned.ids stored).mpr ⟨member, fun number => ?_⟩) same
      exact own (same.symm.trans number)
  · exact fun y member => owned.lists y (mem_of_mem_erase member)
  · exact fun y member => owned.mine y (mem_of_mem_erase member)

theorem Owned.destroy_breaks (owned : s.Owned) (stored : x ∈ s.sessions) (breaks : ¬s.OwnsAlone x) :
    ¬({ s with sessions := s.sessions.erase x }.srdInstFreeAll x).NoDangling := by
  intro safe
  refine breaks ⟨fun di held => ?_, fun di listed reached => ?_⟩
  · have freed : (s.instances di).freed + x.diList.count di = 1 := by
      refine safe.destroyed di held.1.1 fun y member same => ?_
      exact ((mem_erase_iff owned.ids stored).mp member).2 (same.trans held.2)
    rw [held.1.2, Nat.zero_add] at freed
    exact count_pos_iff.mp (freed ▸ Nat.one_pos)
  · have unfreed : (s.instances di).freed + x.diList.count di = 0 := (safe.alive di reached).2
    have counted : 0 < x.diList.count di := count_pos_iff.mpr listed
    omega

theorem unload_breaks_alive (address : Nat) (stored : x ∈ s.sessions) (listed : di ∈ x.diList) : ¬(s.srdDecoderUnload address).NoDangling := by
  intro safe
  have storedAfter : x ∈ (s.srdDecoderUnload address).sessions := by
    rw [srdDecoderUnload_eq]
    exact stored
  have alive := (safe.alive di (.root ⟨x, storedAfter, listed⟩)).2
  have freed := freed_decoderUnload_pos address stored listed
  rw [alive] at freed
  exact Nat.lt_irrefl _ freed

def KeepsOwned (s : LibraryState) : LibraryOperation → Prop
  | .instStack sess diBottom diTop =>
      s.StackCall sess diBottom diTop → s.StacksAlive sess diBottom diTop
  | .sessionDestroy sess => ∀ x ∈ s.sessions, x.sessionId = sess → s.OwnsAlone x
  | .decoderUnload _ => ∀ x ∈ s.sessions, x.diList = []
  | _ => True

theorem Owned.apply (owned : s.Owned) {op : LibraryOperation} (keeps : s.KeepsOwned op) :
    (s.apply op).Owned := by
  cases op with
  | pythonLoad moduleName m => exact (sameLists_registry _).owned owned
  | cDecoderLoad dllPath plugin => exact (sameLists_registry _).owned owned
  | cDecoderUnload decoderId => exact (sameLists_registry _).owned owned
  | decoderUnload address => exact (sameLists_decoderUnload address keeps).owned owned
  | sessionNew => exact owned.srdSessionNew
  | sessionDestroy sess =>
      change (s.srdSessionDestroy sess).Owned
      cases found : s.findSession sess with
      | none =>
          rw [srdSessionDestroy, found]
          exact owned
      | some x =>
          obtain ⟨stored, number⟩ := findSession_some found
          rw [srdSessionDestroy_eq found]
          exact owned.destroy stored (keeps x stored number)
  | instNew sess decoderId accepted =>
      change (s.srdInstNew sess decoderId accepted).Owned
      rcases s.srdInstNew_cases sess decoderId accepted with same | ⟨x, d, found, created⟩
      · rw [same]
        exact owned
      · rw [created]
        exact owned.addInst found d
  | instStack sess diBottom diTop =>
      change (s.srdInstStack sess diBottom diTop).Owned
      unfold srdInstStack
      split
      · rename_i call
        exact owned.link (keeps call)
      · exact owned
  | decodeReturned di => exact (sameLists_decodeReturned di).owned owned
  | resetState di => exact (sameLists_srdInstResetState di).owned owned

theorem Owned.apply_breaks (owned : s.Owned) {op : LibraryOperation}
    (breaks : ¬s.KeepsOwned op) : ¬(s.apply op).NoDangling := by
  cases op with
  | decoderUnload address =>
      obtain ⟨x, stored, filled⟩ : ∃ x ∈ s.sessions, x.diList ≠ [] := by
        by_contra empty
        refine breaks fun x stored => ?_
        by_contra filled
        exact empty ⟨x, stored, filled⟩
      obtain ⟨di, listed⟩ := exists_mem_of_ne_nil _ filled
      exact unload_breaks_alive address stored listed
  | sessionDestroy sess =>
      obtain ⟨x, stored, number, shared⟩ :
          ∃ x ∈ s.sessions, x.sessionId = sess ∧ ¬s.OwnsAlone x := by
        by_contra none
        refine breaks fun x stored number => ?_
        by_contra shared
        exact none ⟨x, stored, number, shared⟩
      change ¬(s.srdSessionDestroy sess).NoDangling
      rw [srdSessionDestroy_eq (findSession_eq owned.ids stored number)]
      exact owned.destroy_breaks stored shared
  | instStack sess diBottom diTop =>
      obtain ⟨call, wrong⟩ := Classical.not_imp.mp breaks
      change ¬(s.srdInstStack sess diBottom diTop).NoDangling
      rw [srdInstStack, if_pos call]
      exact link_breaks_alive wrong
  | _ => exact absurd True.intro breaks

theorem owned_start (modules : List String) : (start modules).Owned := by
  refine ⟨numbered_start modules, ⟨?_, ?_, ?_⟩, ?_, ?_⟩
  · intro di referred
    induction referred with
    | root listed =>
        obtain ⟨x, stored, -⟩ := listed
        exact absurd stored not_mem_nil
    | step _ held => exact absurd held not_mem_nil
  · exact fun _ below => absurd below (Nat.not_lt_zero _)
  · exact fun _ below => absurd below (Nat.not_lt_zero _)
  · exact fun _ member => absurd member not_mem_nil
  · exact fun _ member => absurd member not_mem_nil

theorem noDangling_separates : Separates apply Owned NoDangling KeepsOwned where
  holds owned := owned.toNoDangling
  keeps owned keeps := owned.apply keeps
  breaks owned breaks := owned.apply_breaks breaks

theorem noDangling_iff (modules : List String) (ops : List LibraryOperation) :
    HoldsThroughout apply NoDangling (start modules) ops ↔
      EveryStep apply KeepsOwned (start modules) ops :=
  noDangling_separates.throughout_iff (owned_start modules) ops

/-- A decoder is unloaded while a session has an instance of it. -/
theorem unload_dangles :
    ¬∀ modules ops, HoldsThroughout apply NoDangling (start modules) ops := by
  intro always
  obtain ⟨-, -, -, -, safe⟩ := always [] (oneInstance ++ [.decoderUnload 0])
  have alive := safe.alive 0 (.root ⟨{ sessionId := 1, diList := [0] }, by decide +kernel,
    by decide +kernel⟩)
  exact absurd alive (by decide +kernel)

end LibraryState

end SigrokDecode
