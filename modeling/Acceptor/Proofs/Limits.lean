import Acceptor.Value
import Mathlib.Data.List.Basic

/-!
# What can be written

A value is `Writable` if every integer in it is short and nothing in it stands too deep, and otherwise it `Meets` a
limit: the first one on the way through its parts, in the order in which they are written. `limit?` finds that limit
(`limit?_eq_some_iff`), and nothing if there is none (`limit?_eq_none_iff`).
-/

namespace Acceptor.Value

/-- The values that stand directly in the value, in the order in which they are written. -/
def parts : Value → List Value
  | .list items => items
  | .record fields => fields.map (·.2)
  | _ => []

/-- The value can be written where `room` values can stand in each other, itself among them. -/
inductive Writable : (room : Nat) → Value → Prop
  | intro {room : Nat} {v : Value} (hint : ∀ n, v = .int n → Numeral.Short n)
    (hparts : ∀ w ∈ v.parts, Writable room w) : Writable (room + 1) v

/-- The limit that is met first when the value is written. -/
inductive Meets : (room : Nat) → Value → Limit → Prop
  | nesting {v : Value} : Meets 0 v .nesting
  | digits {room : Nat} {n : Int} (h : ¬ Numeral.Short n) : Meets (room + 1) (.int n) .digits
  | part {room : Nat} {v w : Value} {before after : List Value} {limit : Limit}
    (hparts : v.parts = before ++ w :: after) (hbefore : ∀ u ∈ before, Writable room u)
    (h : Meets room w limit) : Meets (room + 1) v limit

theorem limitOfItems?_eq (items : List Value) (room : Nat) :
    limitOfItems? items room = items.findSome? fun v => v.limit? room := by
  induction items with
  | nil => rfl
  | cons v items ih =>
    rw [limitOfItems?, ih, List.findSome?_cons]
    cases v.limit? room <;> rfl

theorem limitOfFields?_eq (fields : List (String × Value)) (room : Nat) :
    limitOfFields? fields room = (fields.map (·.2)).findSome? fun v => v.limit? room := by
  induction fields with
  | nil => rfl
  | cons field fields ih =>
    rw [limitOfFields?, ih, List.map_cons, List.findSome?_cons]
    cases field.2.limit? room <;> rfl

section

variable {v : Value} {room : Nat} {limit : Limit}

theorem limit?_of_not_int (h : ∀ n, v ≠ .int n) :
    v.limit? (room + 1) = v.parts.findSome? fun w => w.limit? room := by
  cases v with
  | int n => exact absurd rfl (h n)
  | list items => exact limitOfItems?_eq items room
  | record fields => exact limitOfFields?_eq fields room
  | null | bool _ | float _ | text _ => rfl

theorem writable_int {n : Int} : Writable (room + 1) (.int n) ↔ Numeral.Short n := by
  constructor
  · rintro ⟨hint, -⟩; exact hint n rfl
  · exact fun h => .intro (fun m hm => by cases hm; exact h) fun w hw => absurd hw List.not_mem_nil

theorem writable_of_not_int (h : ∀ n, v ≠ .int n) : Writable (room + 1) v ↔ ∀ w ∈ v.parts, Writable room w := by
  constructor
  · rintro ⟨-, hparts⟩; exact hparts
  · exact .intro fun n hn => absurd hn (h n)

theorem limit?_eq_none_iff : v.limit? room = none ↔ Writable room v := by
  induction room generalizing v with
  | zero => exact iff_of_false (fun h => by cases v <;> cases h) fun h => by cases h
  | succ room ih =>
    by_cases hint : ∃ n, v = .int n
    · obtain ⟨n, rfl⟩ := hint
      rw [writable_int]
      show (if Numeral.Short n then none else some Limit.digits) = none ↔ _
      split <;> simp [*]
    · rw [not_exists] at hint
      rw [limit?_of_not_int hint, writable_of_not_int hint, List.findSome?_eq_none_iff]
      simp only [ih]

theorem limit?_eq_some_iff : v.limit? room = some limit ↔ Meets room v limit := by
  induction room generalizing v with
  | zero =>
    have hzero : v.limit? 0 = some .nesting := by cases v <;> rfl
    rw [hzero, Option.some.injEq]
    constructor
    · rintro rfl; exact .nesting
    · rintro ⟨⟩; rfl
  | succ room ih =>
    by_cases hint : ∃ n, v = .int n
    · obtain ⟨n, rfl⟩ := hint
      show (if Numeral.Short n then none else some Limit.digits) = some limit ↔ _
      split
      · next h =>
        refine iff_of_false (fun h => by cases h) fun hmeets => ?_
        cases hmeets with
        | digits hn => exact hn h
        | part hparts => simp [parts] at hparts
      · next h =>
        rw [Option.some.injEq]
        constructor
        · rintro rfl; exact .digits h
        · intro hmeets
          cases hmeets with
          | digits => rfl
          | part hparts => simp [parts] at hparts
    · rw [not_exists] at hint
      rw [limit?_of_not_int hint, List.findSome?_eq_some_iff]
      simp only [limit?_eq_none_iff, ih]
      constructor
      · rintro ⟨before, w, after, hparts, h, hbefore⟩; exact .part hparts hbefore h
      · intro hmeets
        cases hmeets with
        | digits => exact absurd rfl (hint _)
        | part hparts hbefore h => exact ⟨_, _, _, hparts, h, hbefore⟩

end

end Acceptor.Value
