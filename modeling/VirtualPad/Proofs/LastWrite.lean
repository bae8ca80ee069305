import Mathlib.Data.List.Induction

/-!
# The last write

A view of a state that each write either sets or leaves shows what the last write that concerns it
has set.
-/
namespace VirtualPad

theorem foldl_view {σ ω β : Type} (step : σ → ω → σ) (view : σ → β) {concerns : ω → Bool}
    {shown : ω → β}
    (hstep : ∀ s w, view (step s w) = if concerns w then shown w else view s) (ws : List ω)
    (s : σ) :
    view (ws.foldl step s) = ((ws.reverse.find? concerns).map shown).getD (view s) := by
  induction ws using List.reverseRecOn with
  | nil => rfl
  | append_singleton ws w ih =>
    rw [List.foldl_append, List.foldl_cons, List.foldl_nil, hstep, List.reverse_append,
      List.reverse_singleton, List.singleton_append, List.find?_cons]
    cases concerns w with
    | true => rfl
    | false => exact ih

theorem find?_reverse_of_unique {α : Type} {p : α → Bool} {xs : List α} {x : α} (hx : x ∈ xs)
    (hp : p x) (hunique : ∀ y ∈ xs, p y → y = x) : xs.reverse.find? p = some x := by
  cases h : xs.reverse.find? p with
  | none =>
    have hn := List.find?_eq_none.1 h x (List.mem_reverse.2 hx)
    exact absurd hp hn
  | some y =>
    have hy := List.mem_reverse.1 (List.mem_of_find?_eq_some h)
    rw [hunique y hy (List.find?_some h)]

theorem find?_reverse_eq_none {α : Type} {p : α → Bool} {xs : List α} (h : ∀ x ∈ xs, ¬ p x) :
    xs.reverse.find? p = none :=
  List.find?_eq_none.2 fun x hx => h x (List.mem_reverse.1 hx)

theorem find?_reverse_of_last {α : Type} {p : α → Bool} {before after : List α} {x : α} (hx : p x)
    (hafter : ∀ y ∈ after, ¬ p y) : (before ++ x :: after).reverse.find? p = some x := by
  rw [List.reverse_append, List.reverse_cons, List.append_assoc, List.find?_append,
    find?_reverse_eq_none hafter, Option.none_or, List.singleton_append, List.find?_cons_of_pos hx]

end VirtualPad
