import SigrokDecode.Session.StackForests

/-!
# Plugins in use

The search for active instances in `srd_c_decoder_unload` looks for a state that instances of
plugins are never in.
-/

namespace SigrokDecode

open Foundation

namespace RegistryState

variable {s : RegistryState}

def Loaded (s : RegistryState) (decoderId : String) : Prop :=
  ∃ entry handle, s.findById decoderId = some entry ∧ entry.status = .loaded ∧
    entry.handle = some handle

theorem srdCDecoderUnload_ok_iff (decoderId : String) (inUse : Bool) :
    (s.srdCDecoderUnload (some decoderId) inUse).2 = .ok ↔
      s.Loaded decoderId ∧ inUse = false := by
  unfold srdCDecoderUnload
  dsimp only
  split
  · rename_i missing
    refine iff_of_false (by simp) ?_
    rintro ⟨⟨entry, handle, found, -⟩, -⟩
    cases missing.symm.trans found
  · rename_i entry found
    split
    · rename_i handle loaded held
      cases inUse with
      | false => exact iff_of_true rfl ⟨⟨entry, handle, found, loaded, held⟩, rfl⟩
      | true => exact iff_of_false (by simp) (by simp)
    · rename_i other
      refine iff_of_false (by simp) ?_
      rintro ⟨⟨entry', handle, found', loaded, held⟩, -⟩
      obtain rfl := Option.some.inj (found.symm.trans found')
      exact other handle loaded held

end RegistryState

namespace LibraryState

def InUse (s : LibraryState) (decoderId : String) : Prop :=
  ∃ di, Reaches s.nextDi (fun root => ∃ x ∈ s.sessions, root ∈ x.diList) di ∧ s.Alive di ∧
    (s.instances di).isCInst = true ∧ (s.instances di).cDecInst = some decoderId

def Spares (s : LibraryState) (decoderId : String) : Prop :=
  (s.srdCDecoderUnload decoderId).2 = .ok → ¬s.InUse decoderId

def run (modules : List String) (ops : List LibraryOperation) : LibraryState :=
  ops.foldl apply (start modules)

/-- No instance of a plugin has a state other than `SRD_OK`. -/
def StatesOk (s : LibraryState) : Prop :=
  ∀ di, (s.instances di).isCInst = true → (s.instances di).decoderState = 0

variable {s : LibraryState}

theorem StatesOk.activeInstances (statesOk : s.StatesOk) (decoderId : String) :
    s.activeInstances decoderId = false := by
  unfold LibraryState.activeInstances
  rw [List.any_eq_false]
  intro x _
  rw [Bool.not_eq_true, List.any_eq_false]
  intro di _ active
  simp only [Bool.and_eq_true, decide_eq_true_eq] at active
  exact active.2 (statesOk di active.1.1)

theorem StatesOk.update (statesOk : s.StatesOk) {di : Nat} {inst : StackInst}
    (idle : inst.isCInst = true → inst.decoderState = 0) :
    ∀ other, (Function.update s.instances di inst other).isCInst = true →
      (Function.update s.instances di inst other).decoderState = 0 := by
  intro other
  rw [Function.update_apply]
  split
  · exact idle
  · exact statesOk other

theorem StatesOk.apply (statesOk : s.StatesOk) (op : LibraryOperation) : (s.apply op).StatesOk := by
  cases op with
  | pythonLoad moduleName m => exact statesOk
  | cDecoderLoad dllPath plugin => exact statesOk
  | cDecoderUnload decoderId => exact statesOk
  | decoderUnload address =>
      change (s.srdDecoderUnload address).StatesOk
      rw [srdDecoderUnload_eq]
      exact statesOk
  | sessionNew => exact statesOk
  | sessionDestroy sess =>
      change (s.srdSessionDestroy sess).StatesOk
      unfold srdSessionDestroy
      split
      · exact statesOk
      · exact statesOk
  | instNew sess decoderId accepted =>
      change (s.srdInstNew sess decoderId accepted).StatesOk
      rcases s.srdInstNew_cases sess decoderId accepted with same | ⟨x, d, -, created⟩
      · rw [same]
        exact statesOk
      · rw [created]
        exact statesOk.update fun _ => rfl
  | instStack sess diBottom diTop =>
      change (s.srdInstStack sess diBottom diTop).StatesOk
      unfold srdInstStack
      split
      · exact statesOk.update (statesOk diBottom)
      · exact statesOk
  | decodeReturned di =>
      change (s.decodeReturned di).StatesOk
      unfold LibraryState.decodeReturned
      split
      · exact statesOk
      · rename_i python
        exact statesOk.update fun plugin => absurd plugin python
  | resetState di => exact statesOk.update fun _ => rfl

theorem statesOk_run (modules : List String) (ops : List LibraryOperation) :
    (run modules ops).StatesOk := by
  unfold run
  have begins : (start modules).StatesOk := fun _ _ => rfl
  generalize start modules = s at begins
  induction ops generalizing s with
  | nil => exact begins
  | cons op ops ih => exact ih _ (begins.apply op)

theorem StatesOk.unload_ok_iff (statesOk : s.StatesOk) (decoderId : String) :
    (s.srdCDecoderUnload decoderId).2 = .ok ↔ s.registry.Loaded decoderId := by
  change (s.registry.srdCDecoderUnload (some decoderId) (s.activeInstances decoderId)).2 = .ok ↔ _
  rw [RegistryState.srdCDecoderUnload_ok_iff, statesOk.activeInstances]
  exact and_iff_left rfl

theorem unload_spares_iff (modules : List String) (ops : List LibraryOperation)
    (decoderId : String) :
    (run modules ops).Spares decoderId ↔
      ((run modules ops).registry.Loaded decoderId → ¬(run modules ops).InUse decoderId) := by
  unfold Spares
  rw [(statesOk_run modules ops).unload_ok_iff decoderId]

/-- The plugin of the only instance is unloaded. -/
theorem idleInstance_unloaded : ¬∀ modules ops decoderId, (run modules ops).Spares decoderId := by
  intro always
  refine always [] oneInstance "uart_c" (by decide +kernel) ⟨0, .root ?_, ?_⟩
  · exact ⟨{ sessionId := 1, diList := [0] }, by decide +kernel, by decide +kernel⟩
  · exact ⟨by decide +kernel, by decide +kernel, by decide +kernel⟩

end LibraryState

end SigrokDecode
