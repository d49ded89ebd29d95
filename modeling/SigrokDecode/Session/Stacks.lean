import Mathlib.Algebra.Ring.Nat
import SigrokDecode.Loader.RegistryConsistency
import SigrokDecode.Foundation.Forests

/-!
# Sessions and stacks of instances

The lists that `srd_inst_new`, `srd_inst_stack`, `srd_session_destroy` and the two unloads change.
Instances lie in a heap of which no place is used twice.
-/

set_option linter.dupNamespace false

namespace SigrokDecode

open Foundation List

/-- What the lists of instances are about in `struct srd_decoder_inst`. -/
structure StackInst where
  /-- `decoder`, as an address. -/
  decoder : Nat
  /-- `sess`, as its `session_id`. -/
  sess : Nat
  isCInst : Bool
  /-- The `id` of `c_dec_inst`. -/
  cDecInst : Option String
  nextDi : List Nat
  decoderState : Int
  /-- History: how often `srd_inst_free` has been called. -/
  freed : Nat

structure SrdSession where
  sessionId : Nat
  diList : List Nat
  deriving DecidableEq

structure LibraryState where
  registry : RegistryState
  sessions : List SrdSession
  maxSessionId : Nat
  instances : Nat → StackInst
  allocated : Nat

namespace LibraryState

def nextDi (s : LibraryState) (di : Nat) : List Nat :=
  (s.instances di).nextDi

def Alive (s : LibraryState) (di : Nat) : Prop :=
  di < s.allocated ∧ (s.instances di).freed = 0

instance (s : LibraryState) (di : Nat) : Decidable (s.Alive di) :=
  inferInstanceAs (Decidable (_ ∧ _))

def findSession (s : LibraryState) (sess : Nat) : Option SrdSession :=
  s.sessions.find? fun x => x.sessionId = sess

def srdSessionNew (s : LibraryState) : LibraryState :=
  { s with
    sessions := s.sessions ++ [{ sessionId := s.maxSessionId + 1, diList := [] }]
    maxSessionId := s.maxSessionId + 1 }

/-- `srd_inst_free` for each element of `di_list`, which stays as it is. -/
def srdInstFreeAll (s : LibraryState) (x : SrdSession) : LibraryState :=
  { s with
    instances := fun di =>
      { s.instances di with freed := (s.instances di).freed + x.diList.count di } }

def srdSessionDestroy (s : LibraryState) (sess : Nat) : LibraryState :=
  match s.findSession sess with
  | none => s
  | some x => { s with sessions := s.sessions.erase x }.srdInstFreeAll x

def srdDecoderGetById (s : LibraryState) (id : String) : Option SrdDecoder :=
  s.registry.loader.pdList.find? fun d => d.id = id

def createInst (d : SrdDecoder) (sess : Nat) : StackInst where
  decoder := d.address
  sess := sess
  isCInst := d.isCDecoder
  cDecInst := if d.isCDecoder then some d.id else none
  nextDi := []
  decoderState := 0
  freed := 0

def updateSession (s : LibraryState) (sess : Nat) (update : List Nat → List Nat) :
    List SrdSession :=
  s.sessions.map fun x =>
    if x.sessionId = sess then { x with diList := update x.diList } else x

/-- The end of `srd_inst_new`. -/
def addInst (s : LibraryState) (sess : Nat) (d : SrdDecoder) : LibraryState :=
  { s with
    sessions := s.updateSession sess fun diList => diList ++ [s.allocated]
    instances := Function.update s.instances s.allocated (createInst d sess)
    allocated := s.allocated + 1 }

/-- `srd_inst_new`; `accepted` says whether the decoder takes the options. -/
def srdInstNew (s : LibraryState) (sess : Nat) (decoderId : String) (accepted : Bool) :
    LibraryState :=
  match s.findSession sess, s.srdDecoderGetById decoderId, accepted with
  | some _, some d, true => s.addInst sess d
  | _, _, _ => s

def stackRefused (s : LibraryState) (diBottom diTop : Nat) : Bool :=
  (s.instances diBottom).isCInst && !(s.instances diTop).isCInst

/-- The body of `srd_inst_stack` behind its checks. -/
def link (s : LibraryState) (sess diBottom diTop : Nat) : LibraryState :=
  { s with
    sessions := s.updateSession sess fun diList => diList.erase diTop
    instances := Function.update s.instances diBottom
      { s.instances diBottom with nextDi := (s.instances diBottom).nextDi ++ [diTop] } }

/-- The pointers that may be passed are those of sessions and instances that are there. -/
def StackCall (s : LibraryState) (sess diBottom diTop : Nat) : Prop :=
  (s.findSession sess).isSome = true ∧ s.Alive diBottom ∧ s.Alive diTop ∧
    s.stackRefused diBottom diTop = false

instance (s : LibraryState) (sess diBottom diTop : Nat) :
    Decidable (s.StackCall sess diBottom diTop) :=
  inferInstanceAs (Decidable (_ ∧ _))

def srdInstStack (s : LibraryState) (sess diBottom diTop : Nat) : LibraryState :=
  if s.StackCall sess diBottom diTop then s.link sess diBottom diTop else s

/-- Where `di_thread` comes to the end of `decode`. -/
def decodeReturned (s : LibraryState) (di : Nat) : LibraryState :=
  if (s.instances di).isCInst then s
  else
    { s with
      instances := Function.update s.instances di { s.instances di with decoderState := -1 } }

def srdInstResetState (s : LibraryState) (di : Nat) : LibraryState :=
  { s with instances := Function.update s.instances di { s.instances di with decoderState := 0 } }

def srdDecoderUnload (s : LibraryState) (address : Nat) : LibraryState :=
  { s.sessions.foldl srdInstFreeAll s with registry := s.registry.srdDecoderUnload address }

/-- The search of `srd_c_decoder_unload` for active instances. -/
def activeInstances (s : LibraryState) (decoderId : String) : Bool :=
  s.sessions.any fun x => x.diList.any fun di =>
    (s.instances di).isCInst && (s.instances di).cDecInst = some decoderId &&
      (s.instances di).decoderState ≠ 0

def srdCDecoderUnload (s : LibraryState) (decoderId : String) : LibraryState × LoaderCode :=
  let outcome := s.registry.srdCDecoderUnload (some decoderId) (s.activeInstances decoderId)
  ({ s with registry := outcome.1 }, outcome.2)

/-- Calls of the program, and what the threads of the decoders do to the instances. A call with
`NULL` has no effect. -/
inductive LibraryOperation
  | pythonLoad (moduleName : String) (m : PyModule)
  | cDecoderLoad (dllPath : String) (plugin : Plugin)
  | cDecoderUnload (decoderId : String)
  | decoderUnload (address : Nat)
  | sessionNew
  | sessionDestroy (sess : Nat)
  | instNew (sess : Nat) (decoderId : String) (accepted : Bool)
  | instStack (sess diBottom diTop : Nat)
  | decodeReturned (di : Nat)
  | resetState (di : Nat)

def apply (s : LibraryState) : LibraryOperation → LibraryState
  | .pythonLoad moduleName m =>
      { s with registry := s.registry.apply (.pythonLoad moduleName m) }
  | .cDecoderLoad dllPath plugin =>
      { s with registry := s.registry.srdCDecoderLoad (some dllPath) plugin }
  | .cDecoderUnload decoderId => (s.srdCDecoderUnload decoderId).1
  | .decoderUnload address => s.srdDecoderUnload address
  | .sessionNew => s.srdSessionNew
  | .sessionDestroy sess => s.srdSessionDestroy sess
  | .instNew sess decoderId accepted => s.srdInstNew sess decoderId accepted
  | .instStack sess diBottom diTop => s.srdInstStack sess diBottom diTop
  | .decodeReturned di => s.decodeReturned di
  | .resetState di => s.srdInstResetState di

def blankInst : StackInst where
  decoder := 0
  sess := 0
  isCInst := false
  cDecInst := none
  nextDi := []
  decoderState := 0
  freed := 0

/-- Before anything is loaded. -/
def start (modules : List String) : LibraryState where
  registry := RegistryState.empty modules 0
  sessions := []
  maxSessionId := 0
  instances := fun _ => blankInst
  allocated := 0

variable {s : LibraryState}

variable {sess : Nat} {x : SrdSession}

theorem findSession_some (found : s.findSession sess = some x) :
    x ∈ s.sessions ∧ x.sessionId = sess :=
  ⟨mem_of_find?_eq_some found, of_decide_eq_true (find?_some found :)⟩

theorem mem_updateSession (sess : Nat) (update : List Nat → List Nat) :
    x ∈ s.updateSession sess update ↔ ∃ y ∈ s.sessions, x =
        if y.sessionId = sess then { y with diList := update y.diList } else y := by
  unfold updateSession
  rw [mem_map]
  exact exists_congr fun y => and_congr_right fun _ => eq_comm

theorem mem_addInst {d : SrdDecoder} : x ∈ (s.addInst sess d).sessions ↔ ∃ y ∈ s.sessions, x =
        if y.sessionId = sess then { y with diList := y.diList ++ [s.allocated] } else y :=
  mem_updateSession sess fun diList => diList ++ [s.allocated]

theorem mem_link {sess diBottom diTop : Nat} : x ∈ (s.link sess diBottom diTop).sessions ↔
      ∃ y ∈ s.sessions, x =
        if y.sessionId = sess then { y with diList := y.diList.erase diTop } else y :=
  mem_updateSession sess fun diList => diList.erase diTop

theorem updateSession_ids (sess : Nat) (update : List Nat → List Nat) :
    (s.updateSession sess update).map SrdSession.sessionId =
      s.sessions.map SrdSession.sessionId := by
  unfold updateSession
  rw [map_map]
  refine map_congr_left fun x _ => ?_
  rw [Function.comp_apply]
  split <;> rfl

theorem srdInstNew_cases (s : LibraryState) (sess : Nat) (decoderId : String) (accepted : Bool) :
    s.srdInstNew sess decoderId accepted = s ∨ ∃ x d, s.findSession sess = some x ∧
        s.srdInstNew sess decoderId accepted = s.addInst sess d := by
  unfold srdInstNew
  split
  · rename_i x d found _
    exact .inr ⟨x, d, found, rfl⟩
  · exact .inl rfl

theorem instances_addInst (sess : Nat) (d : SrdDecoder) (di : Nat) :
    (s.addInst sess d).instances di =
      if di = s.allocated then createInst d sess else s.instances di :=
  Function.update_apply ..

theorem instances_link (sess diBottom diTop di : Nat) : (s.link sess diBottom diTop).instances di =
      if di = diBottom then
        { s.instances diBottom with nextDi := (s.instances diBottom).nextDi ++ [diTop] }
      else s.instances di :=
  Function.update_apply ..

variable {di : Nat}

theorem nextDi_addInst (sess : Nat) (d : SrdDecoder) (old : di ≠ s.allocated) :
    (s.addInst sess d).nextDi di = s.nextDi di := by
  unfold nextDi
  rw [instances_addInst, if_neg old]

theorem nextDi_addInst_new (sess : Nat) (d : SrdDecoder) :
    (s.addInst sess d).nextDi s.allocated = [] := by
  unfold nextDi
  rw [instances_addInst, if_pos rfl]
  rfl

theorem nextDi_link {diBottom : Nat} (sess diTop : Nat) (other : di ≠ diBottom) :
    (s.link sess diBottom diTop).nextDi di = s.nextDi di := by
  unfold nextDi
  rw [instances_link, if_neg other]

theorem nextDi_link_bottom (sess diBottom diTop : Nat) :
    (s.link sess diBottom diTop).nextDi diBottom = s.nextDi diBottom ++ [diTop] := by
  unfold nextDi
  rw [instances_link, if_pos rfl]

/-- Who an instance belongs to and whether it is there does not change with a stack. -/
theorem sess_link (sess diBottom diTop di : Nat) :
    ((s.link sess diBottom diTop).instances di).sess = (s.instances di).sess := by
  rw [instances_link]
  split
  · rename_i here
    rw [here]
  · rfl

theorem freed_link (sess diBottom diTop di : Nat) :
    ((s.link sess diBottom diTop).instances di).freed = (s.instances di).freed := by
  rw [instances_link]
  split
  · rename_i here
    rw [here]
  · rfl

theorem foldl_srdInstFreeAll (sessions : List SrdSession) (s : LibraryState) :
    (sessions.foldl srdInstFreeAll s) =
      { s with
        instances := fun di =>
          { s.instances di with
            freed := (s.instances di).freed + (sessions.map fun x => x.diList.count di).sum } } := by
  induction sessions generalizing s with
  | nil =>
      rfl
  | cons x sessions ih =>
      rw [foldl_cons, ih]
      simp only [srdInstFreeAll, map_cons, sum_cons, Nat.add_assoc]

theorem srdDecoderUnload_eq (s : LibraryState) (address : Nat) : s.srdDecoderUnload address =
      { s with
        registry := s.registry.srdDecoderUnload address
        instances := fun di =>
          { s.instances di with
            freed := (s.instances di).freed +
              (s.sessions.map fun x => x.diList.count di).sum } } := by
  unfold srdDecoderUnload
  rw [foldl_srdInstFreeAll]

def Holds (s : LibraryState) (x : SrdSession) (di : Nat) : Prop :=
  s.Alive di ∧ (s.instances di).sess = x.sessionId

/-- A change of other things than the lists. -/
structure SameLists (s t : LibraryState) : Prop where
  sessions : t.sessions = s.sessions
  maxSessionId : t.maxSessionId = s.maxSessionId
  allocated : t.allocated = s.allocated
  nextDi : ∀ di, t.nextDi di = s.nextDi di
  sess : ∀ di, (t.instances di).sess = (s.instances di).sess
  freed : ∀ di, (t.instances di).freed = (s.instances di).freed

variable {t : LibraryState}

theorem SameLists.alive_iff (same : SameLists s t) (di : Nat) : t.Alive di ↔ s.Alive di := by
  unfold Alive
  rw [same.allocated, same.freed]

theorem SameLists.holds_iff (same : SameLists s t) (x : SrdSession) (di : Nat) :
    t.Holds x di ↔ s.Holds x di := by
  unfold Holds
  rw [same.alive_iff, same.sess]

theorem sameLists_decodeReturned (di : Nat) : SameLists s (s.decodeReturned di) := by
  unfold decodeReturned
  split
  · exact ⟨rfl, rfl, rfl, fun _ => rfl, fun _ => rfl, fun _ => rfl⟩
  · refine ⟨rfl, rfl, rfl, fun other => ?_, fun other => ?_, fun other => ?_⟩
    all_goals
      by_cases here : other = di
      · subst here
        simp [nextDi]
      · simp [nextDi, here]

theorem sameLists_srdInstResetState (di : Nat) : SameLists s (s.srdInstResetState di) := by
  refine ⟨rfl, rfl, rfl, fun other => ?_, fun other => ?_, fun other => ?_⟩
  all_goals
    by_cases here : other = di
    · subst here
      simp [nextDi, srdInstResetState]
    · simp [nextDi, srdInstResetState, here]

theorem sameLists_registry (registry : RegistryState) : SameLists s { s with registry } :=
  ⟨rfl, rfl, rfl, fun _ => rfl, fun _ => rfl, fun _ => rfl⟩

theorem sameLists_decoderUnload (address : Nat) (empty : ∀ x ∈ s.sessions, x.diList = []) :
    SameLists s (s.srdDecoderUnload address) := by
  rw [srdDecoderUnload_eq]
  refine ⟨rfl, rfl, rfl, fun _ => rfl, fun _ => rfl, fun di => ?_⟩
  have nothing : (s.sessions.map fun x => x.diList.count di).sum = 0 := by
    refine List.sum_eq_zero_iff_forall_eq_nat.mpr fun count member => ?_
    obtain ⟨x, stored, rfl⟩ := mem_map.mp member
    rw [empty x stored, count_nil]
  change (s.instances di).freed + (s.sessions.map fun x => x.diList.count di).sum = _
  rw [nothing, Nat.add_zero]

theorem freed_decoderUnload_pos (address : Nat) (stored : x ∈ s.sessions) (listed : di ∈ x.diList) :
    0 < ((s.srdDecoderUnload address).instances di).freed := by
  rw [srdDecoderUnload_eq]
  have counted : 0 < (s.sessions.map fun x => x.diList.count di).sum := by
    refine List.sum_pos_iff_exists_pos_nat.mpr ⟨x.diList.count di, ?_, ?_⟩
    · exact mem_map.mpr ⟨x, stored, rfl⟩
    · exact count_pos_iff.mpr listed
  exact Nat.add_pos_right _ counted

/-- Numbers are given out once, and an instance has one that was. -/
structure Numbered (s : LibraryState) : Prop where
  ids : (s.sessions.map SrdSession.sessionId).Nodup
  numbered : ∀ x ∈ s.sessions, x.sessionId ≤ s.maxSessionId
  owned : ∀ di < s.allocated, (s.instances di).sess ≤ s.maxSessionId

theorem eq_of_sessionId (ids : (s.sessions.map SrdSession.sessionId).Nodup) {x y : SrdSession}
    (first : x ∈ s.sessions) (second : y ∈ s.sessions) (same : x.sessionId = y.sessionId) :
    x = y :=
  inj_on_of_nodup_map ids first second same

theorem findSession_eq (ids : (s.sessions.map SrdSession.sessionId).Nodup)
    (stored : x ∈ s.sessions) (number : x.sessionId = sess) :
    s.findSession sess = some x := by
  have isPresent : (s.findSession sess).isSome = true :=
    find?_isSome.mpr ⟨x, stored, decide_eq_true number⟩
  obtain ⟨y, found⟩ := Option.isSome_iff_exists.mp isPresent
  obtain ⟨present, same⟩ := findSession_some found
  rw [eq_of_sessionId ids stored present (number.trans same.symm)]
  exact found

theorem srdSessionDestroy_eq (found : s.findSession sess = some x) :
    s.srdSessionDestroy sess = { s with sessions := s.sessions.erase x }.srdInstFreeAll x := by
  unfold srdSessionDestroy
  rw [found]

theorem mem_erase_iff (ids : (s.sessions.map SrdSession.sessionId).Nodup) {x y : SrdSession}
    (stored : x ∈ s.sessions) :
    y ∈ s.sessions.erase x ↔ y ∈ s.sessions ∧ y.sessionId ≠ x.sessionId := by
  rw [ids.of_map.mem_erase_iff, and_comm]
  refine and_congr_right fun member => not_congr ?_
  exact ⟨congrArg SrdSession.sessionId, eq_of_sessionId ids member stored⟩

theorem sessionId_ite (sess : Nat) (x : SrdSession) (diList : List Nat) :
    (if x.sessionId = sess then { x with diList } else x).sessionId = x.sessionId := by
  split <;> rfl

theorem SameLists.numbered (same : SameLists s t) (numbered : s.Numbered) : t.Numbered where
  ids := by
    rw [same.sessions]
    exact numbered.ids
  numbered := by
    rw [same.sessions, same.maxSessionId]
    exact numbered.numbered
  owned di below := by
    rw [same.allocated] at below
    rw [same.sess, same.maxSessionId]
    exact numbered.owned di below

theorem Numbered.srdSessionNew (numbered : s.Numbered) : s.srdSessionNew.Numbered where
  ids := by
    change ((s.sessions ++ [_]).map SrdSession.sessionId).Nodup
    rw [map_append]
    refine nodup_append.mpr ⟨numbered.ids, nodup_singleton _, ?_⟩
    rintro number member other single rfl
    obtain ⟨x, stored, same⟩ := mem_map.mp member
    obtain rfl := mem_singleton.mp single
    have below := numbered.numbered x stored
    rw [same] at below
    exact Nat.not_succ_le_self _ below
  numbered x member := by
    change x.sessionId ≤ s.maxSessionId + 1
    rcases mem_append.mp member with old | new
    · exact Nat.le_succ_of_le (numbered.numbered x old)
    · exact Nat.le_of_eq (congrArg SrdSession.sessionId (mem_singleton.mp new))
  owned di below := Nat.le_succ_of_le (numbered.owned di below)

theorem Numbered.addInst (numbered : s.Numbered)
    (found : s.findSession sess = some x) (d : SrdDecoder) : (s.addInst sess d).Numbered := by
  obtain ⟨stored, number⟩ := findSession_some found
  constructor
  · exact (updateSession_ids sess fun diList => diList ++ [s.allocated]).symm ▸ numbered.ids
  · intro y member
    obtain ⟨before, earlier, rfl⟩ := mem_addInst.mp member
    rw [sessionId_ite]
    exact numbered.numbered before earlier
  · intro di below
    change ((s.addInst sess d).instances di).sess ≤ s.maxSessionId
    rw [instances_addInst]
    split
    · exact number ▸ numbered.numbered x stored
    · rename_i old
      exact numbered.owned di (Nat.lt_of_le_of_ne (Nat.le_of_lt_succ below) old)

theorem Numbered.link (numbered : s.Numbered) (sess diBottom diTop : Nat) :
    (s.link sess diBottom diTop).Numbered := by
  constructor
  · exact (updateSession_ids sess fun diList => diList.erase diTop).symm ▸ numbered.ids
  · intro y stored
    obtain ⟨before, earlier, rfl⟩ := mem_link.mp stored
    rw [sessionId_ite]
    exact numbered.numbered before earlier
  · intro di below
    rw [sess_link]
    exact numbered.owned di below

theorem Numbered.destroy (numbered : s.Numbered) (x : SrdSession) :
    ({ s with sessions := s.sessions.erase x }.srdInstFreeAll x).Numbered where
  ids := numbered.ids.sublist (erase_sublist.map _)
  numbered y member := numbered.numbered y (mem_of_mem_erase member)
  owned := numbered.owned

theorem numbered_start (modules : List String) : (start modules).Numbered where
  ids := nodup_nil
  numbered _ member := absurd member not_mem_nil
  owned _ below := absurd below (Nat.not_lt_zero _)

end LibraryState

end SigrokDecode
