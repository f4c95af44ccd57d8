import BlockFlow.Error
import Mathlib.Logic.Function.Iterate

/-!
# Copies of an error

A copy is the same failure and tells the caller the same (`copiedAs_duplicate`), though a chain of
texts is reduced to the one line that all its texts make. A copy of a copy is the copy itself
(`duplicate_duplicate`), so that it does not matter how often an error was copied on its way
(`iterate_duplicate`).
-/

set_option autoImplicit false

namespace BlockFlow

namespace CauseChain

@[simp] theorem joined_top (top : String) : (⟨top, []⟩ : CauseChain).joined = top := by
  simp [joined, texts]

theorem joined_top_cause (top cause : String) :
    (⟨top, [cause]⟩ : CauseChain).joined = top ++ ": " ++ cause := by
  rw [joined, texts, String.intercalate_cons_cons, String.intercalate_singleton]

end CauseChain

namespace FifoError

/-- A caller cannot tell the errors apart by the failure they name, the kind of the failed
operation, the text, or the text with all causes. -/
structure SeenAlike (e e' : FifoError) : Prop where
  kindName_eq : e'.kindName = e.kindName
  ioKind?_eq : e'.ioKind? = e.ioKind?
  message_eq : e'.message = e.message
  fullMessage_eq : e'.fullMessage = e.fullMessage

/-- The second error tells a caller what the first does. -/
structure CopiedAs (e e' : FifoError) : Prop where
  kindName_eq : e'.kindName = e.kindName
  /-- Numbers, texts and parties are the same. -/
  plain : (∀ x, e ≠ .io x) → (∀ c, e ≠ .other c) → e' = e
  /-- So are the kind of a failed operation and its text. -/
  io : ∀ x, e = .io x → ∃ y, e' = .io y ∧ y.kind = x.kind ∧ y.text = x.text
  message_eq : (∀ c, e ≠ .other c) → e'.message = e.message
  /-- Of a chain of texts, the one line that they make has become the text. -/
  other : ∀ c, e = .other c → e'.message = e.fullMessage
  fullMessage_eq : e'.fullMessage = e.fullMessage

@[refl] theorem SeenAlike.refl (e : FifoError) : e.SeenAlike e := ⟨rfl, rfl, rfl, rfl⟩

theorem copiedAs_duplicate (e : FifoError) : e.CopiedAs e.duplicate := by
  cases e with
  | io x =>
    refine ⟨rfl, fun hio _ => absurd rfl (hio x), ?_, fun _ => rfl, nofun, rfl⟩
    rintro _ ⟨⟩
    exact ⟨_, rfl, rfl, rfl⟩
  | other c =>
    have hfull : (other c).duplicate.fullMessage = (other c).fullMessage :=
      CauseChain.joined_top c.joined
    exact ⟨rfl, fun _ hother => absurd rfl (hother c), nofun, fun hother => absurd rfl (hother c),
      fun _ _ => rfl, hfull⟩
  | _ => exact ⟨rfl, fun _ _ => rfl, nofun, fun _ => rfl, nofun, rfl⟩

/-- A copy of a copy is a copy. -/
@[simp] theorem duplicate_duplicate (e : FifoError) : e.duplicate.duplicate = e.duplicate := by
  cases e with
  | io e => rfl
  | other c => simp [duplicate]
  | _ => rfl

/-- By induction over the copies: all are the first one. -/
theorem iterate_duplicate (e : FifoError) (n : Nat) : duplicate^[n + 1] e = e.duplicate := by
  induction n with
  | zero => rfl
  | succ n ih => rw [Function.iterate_succ_apply', ih, duplicate_duplicate]

end FifoError

end BlockFlow
