import Mathlib.Data.List.Count
import Mathlib.Data.List.Nodup
import Mathlib.Data.List.Perm.Basic

/-!
# Nodes that hold lists of nodes

A recursive walk over such lists ends where there is a derivation of `Walk`. The walk of a forest
visits each node once, and every node is found along one path.
-/

namespace SigrokDecode.Foundation

open List

universe u

section Forests

variable {Node : Type u}

/-- `Walk next roots visited`: the walk from `roots`, each node before what it holds, is over after
`visited`. -/
inductive Walk (next : Node → List Node) : List Node → List Node → Prop
  | nil : Walk next [] []
  | cons {node : Node} {rest below others : List Node} :
      Walk next (next node) below → Walk next rest others →
      Walk next (node :: rest) (node :: (below ++ others))

def follow (next : Node → List Node) (roots : List Node) (position : Nat) : List Nat → Option Node
  | [] => roots[position]?
  | below :: path => roots[position]?.bind fun node => follow next (next node) below path

inductive Reaches (next : Node → List Node) (roots : Node → Prop) : Node → Prop
  | root {node : Node} : roots node → Reaches next roots node
  | step {node below : Node} : Reaches next roots node → below ∈ next node →
      Reaches next roots below

variable {next changed : Node → List Node} {roots visited : List Node}

theorem Walk.unique (walk : Walk next roots visited) {other : List Node}
    (again : Walk next roots other) : visited = other := by
  induction walk generalizing other with
  | nil =>
      cases again
      rfl
  | cons _ _ belowHypothesis restHypothesis =>
      cases again with
      | cons below rest =>
          rw [belowHypothesis below, restHypothesis rest]

theorem walk_append_iff {before after : List Node} : Walk next (before ++ after) visited ↔
      ∃ first last, Walk next before first ∧ Walk next after last ∧ visited = first ++ last := by
  induction before generalizing visited with
  | nil =>
      constructor
      · intro walk
        exact ⟨[], visited, .nil, walk, rfl⟩
      · rintro ⟨first, last, empty, walk, rfl⟩
        cases empty
        exact walk
  | cons node before ih =>
      constructor
      · intro walk
        cases walk with
        | cons below rest =>
            obtain ⟨first, last, walkFirst, walkLast, rfl⟩ := ih.mp rest
            refine ⟨_, last, .cons below walkFirst, walkLast, ?_⟩
            rw [cons_append, List.append_assoc]
      · rintro ⟨first, last, walkFirst, walkLast, rfl⟩
        cases walkFirst with
        | cons below rest =>
            have joined := ih.mpr ⟨_, last, rest, walkLast, rfl⟩
            rw [cons_append, cons_append, List.append_assoc]
            exact .cons below joined

variable {node : Node}

theorem walk_singleton_iff :
    Walk next [node] visited ↔ ∃ below, Walk next (next node) below ∧ visited = node :: below := by
  constructor
  · intro walk
    cases walk with
    | cons below rest =>
        cases rest
        exact ⟨_, below, by rw [List.append_nil]⟩
  · rintro ⟨below, walk, rfl⟩
    have whole := Walk.cons walk Walk.nil
    rw [List.append_nil] at whole
    exact whole

theorem Walk.roots_sublist (walk : Walk next roots visited) : roots.Sublist visited := by
  induction walk with
  | nil => exact .slnil
  | cons _ _ _ restHypothesis =>
      exact (restHypothesis.trans (sublist_append_right _ _)).cons_cons _

theorem Walk.congr (walk : Walk next roots visited)
    (same : ∀ node ∈ visited, changed node = next node) : Walk changed roots visited := by
  induction walk with
  | nil => exact .nil
  | cons _ _ belowHypothesis restHypothesis =>
      refine .cons ?_ (restHypothesis fun node member => ?_)
      · rw [same _ mem_cons_self]
        refine belowHypothesis fun node member => ?_
        exact same node (mem_cons_of_mem _ (mem_append_left _ member))
      · exact same node (mem_cons_of_mem _ (mem_append_right _ member))

theorem Walk.exists_inner (walk : Walk next roots visited) (member : node ∈ visited) :
    ∃ below, Walk next (next node) below ∧ below ⊆ visited ∧ below.length < visited.length := by
  induction walk with
  | nil => exact absurd member not_mem_nil
  | @cons root rest inner others walkInner _ belowHypothesis restHypothesis =>
      rcases mem_cons.mp member with rfl | member
      · refine ⟨inner, walkInner, ?_, ?_⟩
        · intro other inside
          exact mem_cons_of_mem _ (mem_append_left _ inside)
        · simp only [length_cons, length_append]
          omega
      · rcases mem_append.mp member with inside | later
        · obtain ⟨below, walkBelow, subset, shorter⟩ := belowHypothesis inside
          refine ⟨below, walkBelow, ?_, ?_⟩
          · intro other member
            exact mem_cons_of_mem _ (mem_append_left _ (subset member))
          · simp only [length_cons, length_append]
            omega
        · obtain ⟨below, walkBelow, subset, shorter⟩ := restHypothesis later
          refine ⟨below, walkBelow, ?_, ?_⟩
          · intro other member
            exact mem_cons_of_mem _ (mem_append_right _ (subset member))
          · simp only [length_cons, length_append]
            omega

theorem Walk.not_mem_below {below : List Node}
    (walk : Walk next (next node) below) : node ∉ below := by
  intro member
  obtain ⟨inner, walkInner, -, shorter⟩ := walk.exists_inner member
  rw [walk.unique walkInner] at shorter
  exact Nat.lt_irrefl _ shorter

variable {set others : Node → Prop}

theorem Reaches.of_roots (reached : Reaches next set node)
    (roots : ∀ root, set root → Reaches next others root) : Reaches next others node := by
  induction reached with
  | root member => exact roots _ member
  | step _ below ih => exact .step ih below

theorem Reaches.mono (reached : Reaches next set node)
    (edges : ∀ node, next node ⊆ changed node) : Reaches changed set node := by
  induction reached with
  | root member => exact .root member
  | step _ below ih => exact .step ih (edges _ below)

theorem Walk.mem_iff_reaches (walk : Walk next roots visited) :
    node ∈ visited ↔ Reaches next (· ∈ roots) node := by
  constructor
  · intro member
    induction walk with
    | nil => exact absurd member not_mem_nil
    | cons _ _ belowHypothesis restHypothesis =>
        rcases mem_cons.mp member with rfl | member
        · exact .root mem_cons_self
        · rcases mem_append.mp member with inside | later
          · refine (belowHypothesis inside).of_roots fun below held => ?_
            exact .step (.root mem_cons_self) held
          · refine (restHypothesis later).of_roots fun root held => ?_
            exact .root (mem_cons_of_mem _ held)
  · intro reached
    induction reached with
    | root member => exact walk.roots_sublist.subset member
    | step _ held ih =>
        obtain ⟨inner, walkInner, subset, -⟩ := walk.exists_inner ih
        exact subset (walkInner.roots_sublist.subset held)

theorem follow_cons_succ (node : Node) (rest : List Node) (position : Nat) (path : List Nat) :
    follow next (node :: rest) (position + 1) path = follow next rest position path := by
  cases path with
  | nil => rfl
  | cons below path => rfl

theorem follow_cons_zero (node : Node) (rest : List Node) (below : Nat) (path : List Nat) :
    follow next (node :: rest) 0 (below :: path) = follow next (next node) below path :=
  rfl

theorem Walk.mem_of_follow (walk : Walk next roots visited) {position : Nat} {path : List Nat}
    (found : follow next roots position path = some node) : node ∈ visited := by
  induction walk generalizing position path with
  | nil =>
      cases path with
      | nil => exact nomatch found
      | cons below path => exact nomatch found
  | cons _ _ belowHypothesis restHypothesis =>
      cases position with
      | zero =>
          cases path with
          | nil =>
              obtain rfl := Option.some.inj found
              exact mem_cons_self
          | cons below path =>
              have inside := belowHypothesis found
              exact mem_cons_of_mem _ (mem_append_left _ inside)
      | succ position =>
          rw [follow_cons_succ] at found
          exact mem_cons_of_mem _ (mem_append_right _ (restHypothesis found))

theorem Walk.exists_path (walk : Walk next roots visited)
    (member : node ∈ visited) : ∃ position path, follow next roots position path = some node := by
  induction walk with
  | nil => exact absurd member not_mem_nil
  | cons _ _ belowHypothesis restHypothesis =>
      rcases mem_cons.mp member with rfl | member
      · exact ⟨0, [], rfl⟩
      · rcases mem_append.mp member with inside | later
        · obtain ⟨position, path, found⟩ := belowHypothesis inside
          exact ⟨0, position :: path, found⟩
        · obtain ⟨position, path, found⟩ := restHypothesis later
          exact ⟨position + 1, path, (follow_cons_succ _ _ _ _).trans found⟩

theorem Walk.path_unique (walk : Walk next roots visited) (once : visited.Nodup)
    {position other : Nat} {path route : List Nat}
    (found : follow next roots position path = some node)
    (again : follow next roots other route = some node) : position = other ∧ path = route := by
  induction walk generalizing position other path route with
  | nil =>
      cases path with
      | nil => exact nomatch found
      | cons below path => exact nomatch found
  | @cons root rest inner others walkInner walkRest belowHypothesis restHypothesis =>
      obtain ⟨apart, nodup⟩ := nodup_cons.mp once
      obtain ⟨onceInner, onceOthers, disjoint⟩ := nodup_append.mp nodup
      have place : ∀ {position : Nat} {path : List Nat},
          follow next (root :: rest) position path = some node →
          (position = 0 ∧ path = [] ∧ root = node) ∨
            (∃ below deeper, position = 0 ∧ path = below :: deeper ∧ node ∈ inner ∧
              follow next (next root) below deeper = some node) ∨
            ∃ later, position = later + 1 ∧ node ∈ others ∧
              follow next rest later path = some node := by
        intro position path found
        cases position with
        | zero =>
            cases path with
            | nil => exact .inl ⟨rfl, rfl, Option.some.inj found⟩
            | cons below deeper =>
                rw [follow_cons_zero] at found
                exact .inr (.inl ⟨below, deeper, rfl, rfl, walkInner.mem_of_follow found, found⟩)
        | succ later =>
            rw [follow_cons_succ] at found
            exact .inr (.inr ⟨later, rfl, walkRest.mem_of_follow found, found⟩)
      rcases place found with ⟨rfl, rfl, rfl⟩ | ⟨below, deeper, rfl, rfl, inside, found⟩ |
          ⟨later, rfl, inside, found⟩ <;>
        rcases place again with ⟨rfl, rfl, same⟩ | ⟨below', deeper', rfl, rfl, inside', again⟩ |
          ⟨later', rfl, inside', again⟩
      · exact ⟨rfl, rfl⟩
      · exact absurd (mem_append_left _ inside') apart
      · exact absurd (mem_append_right _ inside') apart
      · exact absurd (mem_append_left _ (same ▸ inside)) apart
      · obtain ⟨rfl, rfl⟩ := belowHypothesis onceInner found again
        exact ⟨rfl, rfl⟩
      · exact absurd rfl (disjoint node inside node inside')
      · exact absurd (mem_append_right _ (same ▸ inside)) apart
      · exact absurd rfl (disjoint node inside' node inside)
      · obtain ⟨rfl, rfl⟩ := restHypothesis onceOthers found again
        exact ⟨rfl, rfl⟩

theorem Walk.acyclic (walk : Walk next roots visited) (member : node ∈ visited)
    (position : Nat) (path : List Nat) : follow next (next node) position path ≠ some node := by
  intro found
  obtain ⟨below, walkBelow, -⟩ := walk.exists_inner member
  exact walkBelow.not_mem_below (walkBelow.mem_of_follow found)

section Link

variable [DecidableEq Node] {bottom top : Node}

/-- What `top` holds is visited once more wherever `bottom` was. -/
theorem Walk.link (walk : Walk next roots visited) {above : List Node}
    (other : ∀ node, node ≠ bottom → changed node = next node)
    (linked : changed bottom = next bottom ++ [top]) (walkTop : Walk changed [top] above) :
    ∃ longer, Walk changed roots longer ∧
      ∀ node, longer.count node = visited.count node + visited.count bottom * above.count node := by
  induction walk with
  | nil => exact ⟨[], .nil, fun node => by simp⟩
  | @cons root rest inner others _ _ belowHypothesis restHypothesis =>
      obtain ⟨below, walkBelow, countBelow⟩ := belowHypothesis
      obtain ⟨later, walkLater, countLater⟩ := restHypothesis
      by_cases here : root = bottom
      · subst here
        have walkRoot : Walk changed (changed root) (below ++ above) := by
          rw [linked]
          exact walk_append_iff.mpr ⟨below, above, walkBelow, walkTop, rfl⟩
        refine ⟨_, .cons walkRoot walkLater, fun node => ?_⟩
        simp only [count_cons, count_append, countBelow, countLater, beq_self_eq_true,
          if_true, Nat.add_mul, Nat.one_mul]
        omega
      · have walkRoot : Walk changed (changed root) below := by
          rw [other root here]
          exact walkBelow
        refine ⟨_, .cons walkRoot walkLater, fun node => ?_⟩
        have notHere : (root == bottom) = false := by simpa using here
        simp only [count_cons, count_append, countBelow, countLater, notHere,
          Nat.add_mul, Bool.false_eq_true, if_false, Nat.add_zero]
        omega

end Link

/-- With one more edge from `bottom` to `top`. -/
theorem reaches_link_iff {bottom top : Node}
    (other : ∀ node, node ≠ bottom → changed node = next node)
    (linked : changed bottom = next bottom ++ [top]) :
    Reaches changed set node ↔ Reaches next set node ∨
        (Reaches next set bottom ∧ Reaches next (fun root => root = top) node) := by
  have edges : ∀ node, next node ⊆ changed node := by
    intro node below inside
    by_cases here : node = bottom
    · subst here
      rw [linked]
      exact mem_append_left _ inside
    · rw [other node here]
      exact inside
  constructor
  · intro reached
    induction reached with
    | root member => exact .inl (.root member)
    | @step parent below _ inside ih =>
        have split : below ∈ next parent ∨ (parent = bottom ∧ below = top) := by
          by_cases here : parent = bottom
          · subst here
            rw [linked] at inside
            rcases mem_append.mp inside with old | new
            · exact .inl old
            · exact .inr ⟨rfl, mem_singleton.mp new⟩
          · rw [other parent here] at inside
            exact .inl inside
        rcases split with old | ⟨rfl, rfl⟩
        · rcases ih with reached | ⟨reached, above⟩
          · exact .inl (.step reached old)
          · exact .inr ⟨reached, .step above old⟩
        · rcases ih with reached | ⟨reached, -⟩
          · exact .inr ⟨reached, .root rfl⟩
          · exact .inr ⟨reached, .root rfl⟩
  · rintro (reached | ⟨reached, above⟩)
    · exact reached.mono edges
    · have atBottom : Reaches changed set bottom := reached.mono edges
      have atTop : Reaches changed set top := by
        refine .step atBottom ?_
        rw [linked]
        exact mem_append_right _ mem_cons_self
      exact (above.mono edges).of_roots fun root same => same ▸ atTop

end Forests

end SigrokDecode.Foundation
