import SvgComponent.Jsx.Props
import SvgComponent.Proofs.Pairs.Repeated

/-!
# Moving attributes behind the others

A move takes every entry of a name out of a list of attributes and puts one behind the others. After
any number of moves the entries whose names were not moved stand in front, as they were, and behind
them stands the last move of each name, in the order of these last moves (`foldl_moveToEnd`).

Overrides are moved behind the attributes of an element one after the other, and no name comes twice
in them. So they stand behind the attributes that none of them replaces (`unreplaced`) in the order
in which they were given (`compose_eq`), and all names are different (`nodup_compose`).
-/

namespace SvgComponent.Jsx

/-- The attributes that no override takes the place of. -/
def unreplaced (overrides : Overrides) (attributes : Attributes) : Attributes :=
  attributes.filter fun name _ => decide (name ∉ overrides.keys)

/-! ## Moves -/

/-- Moving attributes to the end one after the other leaves the last of each name there. -/
theorem foldl_moveToEnd (moves props : Props) :
    moves.foldl (fun props p => props.moveToEnd p.1 p.2) props =
      props.filter (fun p => decide (p.1 ∉ moves.map Prod.fst)) ++ lastPairs moves := by
  induction moves generalizing props with
  | nil => simp [lastPairs]
  | cons move moves ih =>
    have hfilter : (props.filter (·.1 ≠ move.1)).filter
          (fun p => decide (p.1 ∉ moves.map Prod.fst)) =
        props.filter fun p => decide (p.1 ∉ (move :: moves).map Prod.fst) := by
      rw [List.filter_filter]
      refine List.filter_congr fun p _ => ?_
      rw [Bool.eq_iff_iff, Bool.and_eq_true, decide_eq_true_eq, decide_eq_true_eq,
        decide_eq_true_eq, List.map_cons, List.mem_cons, not_or, and_comm]
    rw [List.foldl_cons, ih, Props.moveToEnd, List.filter_append, hfilter, lastPairs_cons,
      List.append_assoc]
    -- the entry that has just been moved stays where it is unless its name is moved again
    split_ifs with hm
    · rw [List.filter_cons_of_neg (by simpa using hm)]
      rfl
    · rw [List.filter_cons_of_pos (by simpa using hm)]
      rfl

/-! ## Overrides -/

/-- The overrides as entries of a list of attributes. -/
def Overrides.toProps (overrides : Overrides) : Props :=
  overrides.entries.map fun p => (p.1, Emission.ofOverride p.2)

theorem keys_toProps (overrides : Overrides) :
    overrides.toProps.map Prod.fst = overrides.keys := by
  rw [Overrides.toProps, List.map_map]
  rfl

theorem keys_ofAttributes (attributes : Attributes) :
    (Props.ofAttributes attributes).map Prod.fst = attributes.keys := by
  rw [Props.ofAttributes, List.map_map]
  rfl

/-- The attributes that are not replaced are followed by the overrides. -/
theorem compose_eq (attributes : Attributes) (overrides : Option Overrides) :
    Props.compose attributes overrides =
      Props.ofAttributes (unreplaced (overrides.getD .empty) attributes) ++
        (overrides.getD .empty).toProps := by
  generalize hg : overrides.getD .empty = given
  have hfold : Props.compose attributes overrides =
      given.toProps.foldl (fun props p => props.moveToEnd p.1 p.2)
        (Props.ofAttributes attributes) := by
    rw [Props.compose, hg, Overrides.toProps, List.foldl_map]
  have hlast : lastPairs given.toProps = given.toProps :=
    lastPairs_eq_self ((keys_toProps given).symm ▸ given.nodup)
  rw [hfold, foldl_moveToEnd, hlast, keys_toProps, Props.ofAttributes, List.filter_map]
  rfl

/-- No attribute comes twice. -/
theorem nodup_compose (attributes : Attributes) (overrides : Option Overrides) :
    ((Props.compose attributes overrides).map Prod.fst).Nodup := by
  generalize hg : overrides.getD .empty = given
  rw [compose_eq, hg, List.map_append, keys_ofAttributes, keys_toProps, List.nodup_append]
  refine ⟨(unreplaced given attributes).nodup, given.nodup, ?_⟩
  intro name hname other hother he
  obtain ⟨p, hp, rfl⟩ := List.mem_map.1 hname
  exact of_decide_eq_true (List.mem_filter.1 hp).2 (he ▸ hother)

/-- After any moves, the entries that were not moved are followed by the last move of each name, in
the order of these moves. The attributes of an element are followed in this way by the overrides, in
their order, and no name comes twice. -/
theorem moved_and_composed (props moves : Props) (attributes : Attributes)
    (overrides : Option Overrides) :
    (∃ last : Props,
      moves.foldl (fun props p => props.moveToEnd p.1 p.2) props =
        props.filter (fun p => decide (p.1 ∉ moves.map Prod.fst)) ++ last ∧
      last.map Prod.fst = (moves.map Prod.fst).dedup ∧ ∀ p, p ∈ last ↔ IsLast moves p) ∧
    Props.compose attributes overrides =
      Props.ofAttributes (unreplaced (overrides.getD .empty) attributes) ++
        (overrides.getD .empty).entries.map (fun p => (p.1, Emission.ofOverride p.2)) ∧
    ((Props.compose attributes overrides).map Prod.fst).Nodup :=
  ⟨⟨lastPairs moves, foldl_moveToEnd moves props, keys_lastPairs moves, fun _ => mem_lastPairs_iff⟩,
    compose_eq attributes overrides, nodup_compose attributes overrides⟩

example : [("a", .bare), ("b", .bare), ("a", .quoted "1")].foldl
      (fun (props : Props) p => props.moveToEnd p.1 p.2)
      [("a", .bare), ("c", .bare), ("b", .bare)] =
    [("c", .bare), ("b", .bare), ("a", .quoted "1")] := by
  decide

end SvgComponent.Jsx
