import SigrokDecode.Decoders.DpAuxRecovery

/-!
# The width of a half unit interval

`dp_aux_c` takes the mean of the synchronisation pulses.  The first slot of the sum is written only
behind a pulse that does not fit; the others are written one slot further on.
-/

namespace SigrokDecode

/-- A width that was stored, and its slot; `restarted` says that the pulse did not fit. -/
structure RecordedWidth where
  slot : Nat
  width : Nat
  restarted : Bool

variable {D : Type}

namespace SyncTable

structure Logged (t : SyncTable D) (recorded : List RecordedWidth) : Prop where
  used : t.used = recorded.length
  count : t.count = recorded.length
  slots : recorded = [] ∨ (∃ width, recorded = [⟨0, width, true⟩] ∧ t.entries 0 = width) ∨
    ((∀ width, recorded ≠ [⟨0, width, true⟩]) ∧ t.used ∈ recorded.map RecordedWidth.slot)

variable {t : SyncTable D} {recorded : List RecordedWidth}

theorem Logged.clear : Logged t.clear [] := ⟨rfl, rfl, Or.inl rfl⟩

theorem Logged.push (logged : Logged t recorded) (width : Nat) :
    Logged (t.push width) (recorded ++ [⟨t.used + 1, width, false⟩]) := by
  have length : (recorded ++ [(⟨t.used + 1, width, false⟩ : RecordedWidth)]).length =
      recorded.length + 1 := List.length_append
  refine ⟨?_, ?_, Or.inr (Or.inr ⟨fun other same => ?_, ?_⟩)⟩
  · exact (congrArg (· + 1) logged.used).trans length.symm
  · exact (congrArg (· + 1) logged.count).trans length.symm
  · have last := congrArg List.getLast? same
    rw [List.getLast?_concat] at last
    exact absurd (congrArg RecordedWidth.restarted (Option.some.inj last)) Bool.false_ne_true
  · exact List.mem_map_of_mem (List.mem_append_right _ List.mem_cons_self)

theorem Logged.restart (width : Nat) : Logged (t.restart width) [⟨0, width, true⟩] :=
  ⟨rfl, rfl, Or.inr (Or.inl ⟨width, rfl, rfl⟩)⟩

end SyncTable

namespace DpAuxState

def table (s : DpAuxState D) (level : Bool) : SyncTable D :=
  if level then s.high else s.low

variable {log : SyncLog} {s : DpAuxState D}

variable [CDouble D]

end DpAuxState

end SigrokDecode
