/-!
# Orders for keys

Maps and sets that are listed in key order need no more of an order than that it is strict and that
any two different keys compare.  Texts (by code point) and numbers have such an order, and so have keys that
stand for them.
-/

set_option autoImplicit false

namespace LiveDataflow

/-- A strict order in which any two different keys compare one way or the other. -/
class KeyOrder (κ : Type) [LT κ] : Prop where
  irrefl : ∀ a : κ, ¬ a < a
  trans : ∀ {a b c : κ}, a < b → b < c → a < c
  connected : ∀ a b : κ, a < b ∨ a = b ∨ b < a

instance (priority := low) {κ : Type} [LT κ] [LE κ] [Std.IsLinearOrder κ] [Std.LawfulOrderLT κ] :
    KeyOrder κ where
  irrefl _ := Std.lt_irrefl
  trans := Std.lt_trans
  connected := Std.lt_trichotomy

theorem KeyOrder.ne_of_lt {κ : Type} [LT κ] [KeyOrder κ] {a b : κ} (h : a < b) : a ≠ b :=
  fun e => irrefl b (e ▸ h)

/-- Keys that stand one for one for other keys, in the order of these, are ordered. -/
theorem KeyOrder.of_injective {κ κ' : Type} [LT κ] [LT κ'] [KeyOrder κ'] (f : κ → κ')
    (hf : ∀ a b, f a = f b → a = b) (hlt : ∀ a b, a < b ↔ f a < f b) : KeyOrder κ where
  irrefl a h := irrefl (f a) ((hlt a a).1 h)
  trans hab hbc := (hlt _ _).2 (trans ((hlt _ _).1 hab) ((hlt _ _).1 hbc))
  connected a b := by
    rcases connected (f a) (f b) with h | h | h
    · exact .inl ((hlt a b).2 h)
    · exact .inr (.inl (hf a b h))
    · exact .inr (.inr ((hlt b a).2 h))

end LiveDataflow
