import Mathlib.Data.Set.Function
import RustMetrics.Proofs.Graph.Visits
import RustMetrics.Proofs.Node.Bare

/-! The shapes of a file: what the fingerprints of its places are made from. A place
keeps its shape without its position, and so does all that is met from it. If no two shapes
share a fingerprint, a place has the vertex of a shape only if it has the shape. -/

namespace RustMetrics

namespace Site

/-- What the fingerprint of a place is made from. -/
def shape? : Site → Option Shape
  | item n => some n.shape
  | function n => some n.shape
  | expression n => some n.shape
  | word n => some n.shape
  | absent => none
  | imports t => some t.shape

theorem fingerprint?_eq (s : Site) : s.fingerprint? = s.shape?.map Shape.fingerprint := by
  cases s with
  | item n => exact congrArg some n.fingerprint_shape.symm
  | function n => exact congrArg some n.fingerprint_shape.symm
  | expression n => exact congrArg some n.fingerprint_shape.symm
  | word n => exact congrArg some n.fingerprint_shape.symm
  | absent => rfl
  | imports t => exact congrArg some t.fingerprint_shape.symm

theorem map_fingerprint? (sites : List Site) :
    sites.map fingerprint? = (sites.map shape?).map (Option.map Shape.fingerprint) := by
  rw [List.map_map]
  exact List.map_congr_left fun s _ => s.fingerprint?_eq

theorem shape?_bare (s : Site) : s.bare.shape? = s.shape? := by
  cases s with
  | item n => exact congrArg some n.shape_bare
  | function n => exact congrArg some n.shape_bare
  | expression n => exact congrArg some n.shape_bare
  | word n => exact congrArg some n.shape_bare
  | absent => rfl
  | imports t => rfl

theorem map_shape?_bare (sites : List Site) : (sites.map bare).map shape? = sites.map shape? := by
  rw [List.map_map]
  exact List.map_congr_left fun s _ => s.shape?_bare

theorem expand_bare_eq_ok_iff {s : Site} {below : List Site} :
    s.bare.expand = .ok below ↔ ∃ sites, s.expand = .ok sites ∧ below = sites.map bare := by
  rw [expand_bare]
  cases s.expand with
  | error e => simp [Except.map]
  | ok sites => simp [Except.map, eq_comm]

theorem meets_iff {s t : Site} {below : List Site} (he : s.expand = .ok below) :
    s.Meets t ↔ t = s ∨ ∃ u ∈ below, u.Meets t := by
  rw [Meets, Relation.ReflTransGen.cases_head_iff]
  refine or_congr eq_comm ?_
  constructor
  · rintro ⟨u, ⟨below', he', hu⟩, h⟩
    rw [he] at he'
    cases he'
    exact ⟨u, hu, h⟩
  · rintro ⟨u, hu, h⟩
    exact ⟨u, ⟨below, he, hu⟩, h⟩

theorem exists_meets_of_bare {s t : Site} (h : s.bare.Meets t) : ∃ u, s.Meets u ∧ u.bare = t := by
  induction h with
  | refl => exact ⟨s, .refl, rfl⟩
  | tail _ hstep ih =>
    obtain ⟨u, hu, rfl⟩ := ih
    obtain ⟨below, he, ht⟩ := hstep
    obtain ⟨sites, he', rfl⟩ := expand_bare_eq_ok_iff.mp he
    obtain ⟨v, hv, rfl⟩ := List.mem_map.mp ht
    exact ⟨v, hu.tail ⟨sites, he', hv⟩, rfl⟩

end Site

theorem Graph.Visits.bare {g g' : Graph Fingerprint} {p : Fingerprint} {sites : List Site}
    (h : Visits g p sites g') : Visits g p (sites.map Site.bare) g' := by
  induction h with
  | nil => exact .nil
  | seen hf hv _ ih => exact .seen ((Site.fingerprint?_bare _).trans hf) hv ih
  | entered hf hv he _ _ ihb ih =>
    exact .entered ((Site.fingerprint?_bare _).trans hf) hv
      (Site.expand_bare_eq_ok_iff.mpr ⟨_, he, rfl⟩) ihb ih

namespace SyntaxTree

/-- The places met from the items of a file if every place is entered. -/
def Meets (tree : SyntaxTree) (s : Site) : Prop :=
  ∃ sites, Site.ofFile tree.root = .ok sites ∧ ∃ a ∈ sites, a.Meets s

/-- The shapes that the walk of a file tells apart: its own and those of all places. -/
def shapes (tree : SyntaxTree) : Set Shape :=
  {x | x = tree.root.shape ∨ ∃ s, tree.Meets s ∧ s.shape? = some x}

variable {tree : SyntaxTree}

/-- No place has the vertex of a shape that differs from its own. -/
theorem fingerprint?_ne {sites : List Site} {shapes : Set Shape} {x : Shape}
    (hi : Set.InjOn Shape.fingerprint shapes) (hsub : tree.shapes ⊆ shapes) (hx : x ∈ shapes)
    (hs : Site.ofFile tree.root = .ok sites) (hne : ∀ s, tree.Meets s → s.shape? ≠ some x) :
    ∀ a ∈ sites.map Site.bare, ∀ t, a.Meets t → t.fingerprint? ≠ some x.fingerprint := by
  intro a ham t hmt hf
  obtain ⟨a, hma, rfl⟩ := List.mem_map.mp ham
  obtain ⟨t, ht, rfl⟩ := Site.exists_meets_of_bare hmt
  have hm : tree.Meets t := ⟨sites, hs, a, hma, ht⟩
  rw [Site.fingerprint?_bare, Site.fingerprint?_eq, Option.map_eq_some_iff] at hf
  obtain ⟨y, hy, hfy⟩ := hf
  have hyx : y = x := hi (hsub (.inr ⟨t, hm, hy⟩)) hx hfy
  exact hne t hm (hyx ▸ hy)

end SyntaxTree

end RustMetrics
