import ProviderCatalog.Proofs.Go.Returning
import Mathlib.Data.List.Nodup
import Mathlib.Data.List.Range

/-!
# Addresses in a tree

A node below the root of a tree is reached through phrases: its address tells which of the phrases
of each node on the way is the next one. An address of a node precedes those of the nodes below it
in the lexicographic order, and, of two nodes next to each other, whatever is below the first
precedes whatever is below the second. As the parts of a node stand in the order of the source, so
do the nodes of a tree in the order of their addresses.

A tree is searched by a loop over a stack, which takes the first node from the stack and puts its
phrases in its place. A node that the loop has not found yet is below exactly one of the nodes on
the stack, so the stack gets empty, and the nodes are found in the order of their addresses.

## Main definitions

* `Address`, `Node.at?`: the way to a node, and the node at its end.
* `Node.addresses`: the addresses of all nodes of a tree.
* `Node.front`: the text between the beginning of a tree and a node.
* `Node.Listing`: nodes are all those of a tree, each once and in order.
* `Search`, `Search.turn`: the loop over the stack.

## Main results

* `Node.mem_addresses_iff`, `Node.pairwise_addresses`: all addresses, in their order.
* `Node.front_append_prefix_front`: nodes stand in the source in the order of their addresses.
* `Node.listing_walk`: the nodes of a tree, as a search finds them.
* `Search.turns`, `Search.stack_eq_nil_iff`: what is found and what is left after any number of
  turns, and when nothing is left.
-/

namespace ProviderCatalog.Go

/-- The places of the nodes on the way to a node, each among the phrases of the one before it. -/
abbrev Address := List Nat

namespace Node

variable {n c d : Node} {a b : Address} {cs : List (Role × Node)}

/-! ### The nodes at addresses -/

/-- The node at an address. -/
def at? : Node → Address → Option Node
  | n, [] => some n
  | n, i :: a => n.namedChildren[i]?.bind fun c => at? c a

theorem at?_cons_eq_some {i : Nat} :
    n.at? (i :: a) = some c ↔ ∃ m, n.namedChildren[i]? = some m ∧ m.at? a = some c := by
  rw [at?, Option.bind_eq_some_iff]

mutual

/-- The addresses of the nodes of a tree, each before those of its parts. -/
def addresses : Node → List Address
  | leaf _ _ _ => [[]]
  | branch _ cs => [] :: addressesOf 0 cs

/-- The addresses of the nodes of neighbouring trees with a number of phrases before them. -/
def addressesOf : Nat → List (Role × Node) → List Address
  | _, [] => []
  | i, (_, n) :: rest =>
    if n.isNamed then (addresses n).map (i :: ·) ++ addressesOf (i + 1) rest
    else addressesOf i rest

end

theorem addressesOf_eq (i : Nat) (cs : List (Role × Node)) :
    addressesOf i cs = (((cs.map (·.2)).filter isNamed).zipIdx i).flatMap fun x =>
      x.1.addresses.map (x.2 :: ·) := by
  induction cs generalizing i with
  | nil => rfl
  | cons c cs ih =>
    obtain ⟨r, n⟩ := c
    rw [addressesOf, List.map_cons, List.filter_cons]
    split
    · rw [List.zipIdx_cons, List.flatMap_cons, ih]
    · exact ih i

theorem addresses_eq (n : Node) :
    n.addresses = [] :: n.namedChildren.zipIdx.flatMap fun x => x.1.addresses.map (x.2 :: ·) := by
  cases n with
  | leaf => rfl
  | branch k cs => rw [addresses, addressesOf_eq]; rfl

theorem mem_addresses_iff : a ∈ n.addresses ↔ (n.at? a).isSome := by
  induction a generalizing n with
  | nil => exact ⟨fun _ => rfl, fun _ => addresses_eq n ▸ List.mem_cons_self⟩
  | cons i a ih =>
    rw [Option.isSome_iff_exists]
    simp only [at?_cons_eq_some]
    have hbelow : i :: a ∈ n.addresses ↔
        ∃ m, n.namedChildren[i]? = some m ∧ a ∈ m.addresses := by
      rw [addresses_eq]
      simp [List.mem_zipIdx_iff_getElem?]
    rw [hbelow]
    constructor
    · rintro ⟨m, hm, ha⟩
      obtain ⟨c, hc⟩ := Option.isSome_iff_exists.mp (ih.mp ha)
      exact ⟨c, m, hm, hc⟩
    · rintro ⟨c, m, hm, hc⟩
      exact ⟨m, hm, ih.mpr (hc ▸ rfl)⟩

/-- The addresses of a tree stand in their lexicographic order. -/
theorem pairwise_addresses (n : Node) : n.addresses.Pairwise (· < ·) := by
  induction n using induction_namedChildren with
  | node n ih =>
    rw [addresses_eq, List.pairwise_cons, List.pairwise_flatMap]
    refine ⟨fun a ha => ?_, fun x hx => ?_, ?_⟩
    · obtain ⟨x, -, ha⟩ := List.mem_flatMap.mp ha
      obtain ⟨b, -, rfl⟩ := List.mem_map.mp ha
      exact List.nil_lt_cons _ _
    · have hchild := List.mem_of_getElem? (List.mem_zipIdx_iff_getElem?.mp hx)
      rw [List.pairwise_map]
      exact (ih x.1 hchild).imp fun hab => List.cons_lt_cons_iff.mpr (.inr ⟨rfl, hab⟩)
    · have hplaces : (n.namedChildren.zipIdx.map (·.2)).Pairwise (· < ·) := by
        rw [List.zipIdx_map_snd]
        exact List.pairwise_lt_range'
      refine (List.pairwise_map.mp hplaces).imp fun hij a ha b hb => ?_
      obtain ⟨a, -, rfl⟩ := List.mem_map.mp ha
      obtain ⟨b, -, rfl⟩ := List.mem_map.mp hb
      exact List.cons_lt_cons_iff.mpr (.inl hij)

theorem nodup_addresses (n : Node) : n.addresses.Nodup :=
  (pairwise_addresses n).nodup

/-- The nodes that a search finds are those at the addresses of the tree. -/
theorem map_some_walk (n : Node) : n.walk.map some = n.addresses.map n.at? := by
  induction n using induction_namedChildren with
  | node n ih =>
    rw [walk_eq, addresses_eq, List.map_cons, List.map_cons, List.map_flatMap, List.map_flatMap]
    refine congrArg (some n :: ·) ?_
    have hchild (x : Node × Nat) (hx : x ∈ n.namedChildren.zipIdx) :
        (x.1.addresses.map (x.2 :: ·)).map n.at? = x.1.walk.map some := by
      have hget := List.mem_zipIdx_iff_getElem?.mp hx
      rw [ih x.1 (List.mem_of_getElem? hget), List.map_map]
      refine List.map_congr_left fun a _ => ?_
      rw [Function.comp_apply, at?, hget, Option.bind_some]
    rw [List.flatMap_congr hchild]
    conv_lhs => rw [← List.zipIdx_map_fst 0 n.namedChildren]
    rw [List.flatMap_map]

theorem walk_eq_filterMap (n : Node) : n.walk = n.addresses.filterMap n.at? := by
  have hnodes := congrArg (List.filterMap id) (map_some_walk n)
  rw [List.filterMap_map, List.filterMap_map, Function.id_comp, Function.id_comp,
    List.filterMap_some] at hnodes
  exact hnodes

/-! ### The order of the source -/

/-- The text in front of the phrase that has a number of phrases before it. -/
def textBefore : List (Role × Node) → Nat → List Char
  | [], _ => []
  | (_, n) :: rest, 0 => if n.isNamed then [] else n.fullText ++ textBefore rest 0
  | (_, n) :: rest, i + 1 => n.fullText ++ textBefore rest (if n.isNamed then i else i + 1)

/-- The text between the beginning of a tree and the node at an address. -/
def front : Node → Address → List Char
  | _, [] => []
  | n, i :: a => textBefore n.parts i ++ (n.namedChildren[i]?.elim [] fun c => front c a)

theorem fullTextOf_parts (n : Node) (hn : n.parts ≠ []) : fullTextOf n.parts = n.fullText := by
  cases n with
  | leaf => exact absurd rfl hn
  | branch k cs => rw [fullText, parts]

theorem textBefore_cons_of_isNamed {p : Role × Node} (hp : p.2.isNamed = true) (i : Nat) :
    textBefore (p :: cs) (i + 1) = p.2.fullText ++ textBefore cs i := by
  rw [textBefore, if_pos hp]

theorem textBefore_cons_of_not_isNamed {p : Role × Node} (hp : ¬p.2.isNamed = true) (i : Nat) :
    textBefore (p :: cs) i = p.2.fullText ++ textBefore cs i := by
  cases i <;> rw [textBefore, if_neg hp]

/-- A phrase ends before the parts of its parent do. -/
theorem textBefore_append_prefix_fullTextOf {i : Nat}
    (hc : ((cs.map (·.2)).filter isNamed)[i]? = some c) :
    textBefore cs i ++ c.fullText <+: fullTextOf cs := by
  induction cs generalizing i with
  | nil => cases hc
  | cons p cs ih =>
    rw [List.map_cons, List.filter_cons] at hc
    rw [fullTextOf]
    by_cases hp : p.2.isNamed = true
    · rw [if_pos hp] at hc
      cases i with
      | zero =>
        obtain rfl : p.2 = c := Option.some.inj hc
        rw [textBefore, if_pos hp]
        exact List.prefix_append _ _
      | succ i =>
        rw [textBefore_cons_of_isNamed hp, List.append_assoc]
        exact (List.prefix_append_right_inj _).mpr (ih hc)
    · rw [if_neg hp] at hc
      rw [textBefore_cons_of_not_isNamed hp, List.append_assoc]
      exact (List.prefix_append_right_inj _).mpr (ih hc)

/-- A phrase ends before the phrases behind it begin. -/
theorem textBefore_append_prefix_textBefore {i j : Nat} (hij : i < j)
    (hc : ((cs.map (·.2)).filter isNamed)[i]? = some c)
    (hd : ((cs.map (·.2)).filter isNamed)[j]? = some d) :
    textBefore cs i ++ c.fullText <+: textBefore cs j := by
  induction cs generalizing i j with
  | nil => cases hc
  | cons p cs ih =>
    rw [List.map_cons, List.filter_cons] at hc hd
    by_cases hp : p.2.isNamed = true
    · rw [if_pos hp] at hc hd
      obtain ⟨j, rfl⟩ : ∃ k, j = k + 1 := Nat.exists_eq_succ_of_ne_zero (by omega)
      rw [textBefore_cons_of_isNamed hp]
      cases i with
      | zero =>
        obtain rfl : p.2 = c := Option.some.inj hc
        rw [textBefore, if_pos hp]
        exact List.prefix_append _ _
      | succ i =>
        rw [textBefore_cons_of_isNamed hp, List.append_assoc]
        exact (List.prefix_append_right_inj _).mpr (ih (by omega) hc hd)
    · rw [if_neg hp] at hc hd
      rw [textBefore_cons_of_not_isNamed hp, textBefore_cons_of_not_isNamed hp, List.append_assoc]
      exact (List.prefix_append_right_inj _).mpr (ih hij hc hd)

/-- What is in front of a node and the node itself are the beginning of the tree. -/
theorem front_append_prefix_fullText (hc : n.at? a = some c) :
    n.front a ++ c.fullText <+: n.fullText := by
  induction a generalizing n with
  | nil =>
    cases hc
    exact List.prefix_rfl
  | cons i a ih =>
    obtain ⟨m, hm, hc⟩ := at?_cons_eq_some.mp hc
    have hparts : n.parts ≠ [] := by
      rintro h
      rw [namedChildren, h] at hm
      cases hm
    rw [front, hm, Option.elim_some, List.append_assoc, ← fullTextOf_parts n hparts]
    exact ((List.prefix_append_right_inj _).mpr (ih hc)).trans
      (textBefore_append_prefix_fullTextOf hm)

/-- Of two nodes, the one with the lesser address contains the other or ends before it begins. -/
theorem front_append_prefix_front (hab : a < b) (hc : n.at? a = some c) (hd : n.at? b = some d) :
    a <+: b ∨ n.front a ++ c.fullText <+: n.front b := by
  induction a generalizing n b with
  | nil => exact .inl List.nil_prefix
  | cons i a ih =>
    cases b with
    | nil => exact absurd hab (List.not_lt_nil _)
    | cons j b =>
      obtain ⟨m, hm, hc⟩ := at?_cons_eq_some.mp hc
      obtain ⟨m', hm', hd⟩ := at?_cons_eq_some.mp hd
      rw [front, front, hm, hm', Option.elim_some, Option.elim_some, List.append_assoc]
      rcases List.cons_lt_cons_iff.mp hab with hij | ⟨rfl, htail⟩
      · refine .inr (((List.prefix_append_right_inj _).mpr
          (front_append_prefix_fullText hc)).trans ?_)
        exact (textBefore_append_prefix_textBefore hij hm hm').trans (List.prefix_append _ _)
      · obtain rfl : m = m' := Option.some.inj (hm.symm.trans hm')
        exact (ih htail hc hd).imp (List.cons_prefix_cons.mpr ⟨rfl, ·⟩)
          (List.prefix_append_right_inj _).mpr

/-! ### All nodes of a tree -/

/-- Nodes are those at some places in a tree: at all its addresses, each of which occurs once, in
their lexicographic order, which is the one of the source. -/
structure Listing (n : Node) (found : List Node) (places : List Address) : Prop where
  nodes : found.map some = places.map n.at?
  complete : ∀ a, a ∈ places ↔ (n.at? a).isSome
  once : places.Nodup
  ordered : places.Pairwise (· < ·)
  inSource : places.Pairwise fun a b => a <+: b ∨
    ∀ c d, n.at? a = some c → n.at? b = some d → n.front a ++ c.fullText <+: n.front b

theorem listing_walk (n : Node) : Listing n n.walk n.addresses where
  nodes := map_some_walk n
  complete _ := mem_addresses_iff
  once := nodup_addresses n
  ordered := pairwise_addresses n
  inSource := (pairwise_addresses n).imp fun {a b} hab => by
    by_cases hbelow : a <+: b
    · exact .inl hbelow
    · exact .inr fun c d hc hd => (front_append_prefix_front hab hc hd).resolve_left hbelow

end Node

/-! ### The loop over the stack -/

/-- The nodes that were found, and those to go on with, the next one first. -/
structure Search where
  found : List Node
  stack : List Node

namespace Search

/-- A search that begins. -/
def start (n : Node) : Search := ⟨[], [n]⟩

/-- A turn of the loop, which finds the next node and goes on with its phrases. -/
def turn (s : Search) : Search :=
  match s.stack with
  | [] => s
  | n :: rest => ⟨s.found ++ [n], n.namedChildren ++ rest⟩

/-- What turns find are the next nodes below those on the stack, and the others are below those that
are left on it. -/
theorem turns (k : Nat) (s : Search) :
    (turn^[k] s).found = s.found ++ (Node.walkStack s.stack).take k ∧
      Node.walkStack (turn^[k] s).stack = (Node.walkStack s.stack).drop k := by
  induction k generalizing s with
  | zero => exact ⟨(List.append_nil _).symm, rfl⟩
  | succ k ih =>
    rw [Function.iterate_succ_apply]
    obtain ⟨found, stack⟩ := s
    cases stack with
    | nil => simpa [turn, Node.walkStack] using ih ⟨found, []⟩
    | cons n rest =>
      obtain ⟨hfound, hstack⟩ := ih ⟨found ++ [n], n.namedChildren ++ rest⟩
      rw [List.append_assoc] at hfound
      rw [Node.walkStack]
      exact ⟨hfound, hstack⟩

/-- The loop ends after as many turns as there are nodes. -/
theorem stack_eq_nil_iff (k : Nat) (n : Node) :
    (turn^[k] (start n)).stack = [] ↔ n.walk.length ≤ k := by
  have hleft := (turns k (start n)).2
  rw [← List.drop_eq_nil_iff, Node.walk]
  constructor
  · intro h
    rw [h, Node.walkStack] at hleft
    exact hleft.symm
  · intro h
    rw [start, h] at hleft
    cases hstack : (turn^[k] (start n)).stack with
    | nil => rfl
    | cons m rest =>
      rw [start] at hstack
      rw [hstack, Node.walkStack] at hleft
      cases hleft

end Search

end ProviderCatalog.Go
