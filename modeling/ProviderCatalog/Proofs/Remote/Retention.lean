import ProviderCatalog.Proofs.Remote.Sharing
import Mathlib.Data.List.Dedup
import Mathlib.Data.List.DropRight
import Mathlib.Data.List.Induction

/-!
# What a cache retains

Whatever bodies are stored in a cache, asked for and dropped, and however the clock goes: under an
address the cache gives out the body that was stored there last since everything was dropped, as
long as less than the lifetime of bodies has passed since then. It gives out nothing else. Its size
is the number of addresses at which something was stored since, whether that is expired or not.

## Main definitions

* `CacheUse`, `Cache.after`: the uses of a cache, and the cache after some of them.
* `sinceClear`, `lastStored?`, `storedUrls`: what was stored since everything was dropped.
* `Cache.Retains`: a cache keeps what was stored.

## Main results

* `Cache.Retains.use`: what a use preserves.
* `Cache.after_answers`: what a cache gives out, and its size.
-/

namespace ProviderCatalog.Remote

/-- A use of a cache at a reading of the clock. -/
inductive CacheUse where
  | set (url : Text) (body : Bytes) (now : Rat)
  | get (url : Text) (now : Rat)
  | clear
deriving DecidableEq, Repr

namespace CacheUse

/-- Whether everything is dropped. -/
def isClear : CacheUse → Bool
  | clear => true
  | _ => false

/-- The address at which something is stored. -/
def storedUrl? : CacheUse → Option Text
  | set url _ _ => some url
  | _ => none

/-- What is stored at an address, with the reading of the clock. -/
def stored? (url : Text) : CacheUse → Option (Bytes × Rat)
  | set url' body now => if url' = url then some (body, now) else none
  | _ => none

end CacheUse

/-! ### What was stored -/

/-- The uses after everything was dropped for the last time; all of them if it never was. -/
def sinceClear (uses : List CacheUse) : List CacheUse := uses.rtakeWhile (!·.isClear)

/-- What was stored last at an address since everything was dropped, and when. -/
def lastStored? (uses : List CacheUse) (url : Text) : Option (Bytes × Rat) :=
  ((sinceClear uses).filterMap (·.stored? url)).getLast?

/-- The addresses at which something was stored since everything was dropped. -/
def storedUrls (uses : List CacheUse) : List Text := (sinceClear uses).filterMap (·.storedUrl?)

variable {uses : List CacheUse} {x : CacheUse}

theorem sinceClear_clear (uses : List CacheUse) : sinceClear (uses ++ [.clear]) = [] :=
  List.rtakeWhile_concat_neg _ _ _ Bool.false_ne_true

theorem sinceClear_concat (uses : List CacheUse) (h : x.isClear = false) :
    sinceClear (uses ++ [x]) = sinceClear uses ++ [x] :=
  List.rtakeWhile_concat_pos _ _ _ (by rw [h]; rfl)

theorem lastStored?_concat (uses : List CacheUse) (h : x.isClear = false) (url : Text) :
    lastStored? (uses ++ [x]) url = (x.stored? url).or (lastStored? uses url) := by
  rw [lastStored?, sinceClear_concat uses h, List.filterMap_append, List.getLast?_append]
  cases hx : x.stored? url <;> simp [lastStored?, hx]

theorem mem_storedUrls_concat (uses : List CacheUse) (h : x.isClear = false) (url : Text) :
    url ∈ storedUrls (uses ++ [x]) ↔ url ∈ storedUrls uses ∨ x.storedUrl? = some url := by
  rw [storedUrls, sinceClear_concat uses h, List.filterMap_append, List.mem_append]
  refine or_congr_right ?_
  simp

namespace Cache

/-! ### What a cache keeps -/

/-- The cache after a use. -/
def use (c : Cache) : CacheUse → Cache
  | .set url body now => c.set url body now
  | .get _ _ => c
  | .clear => c.clear

/-- The cache after some uses. -/
def after (c : Cache) (uses : List CacheUse) : Cache := uses.foldl use c

/-- The addresses of the entries of a cache. -/
def urls (c : Cache) : List Text := c.entries.map (·.1)

theorem urls_set (c : Cache) (url : Text) (body : Bytes) (now : Rat) :
    (c.set url body now).urls = if url ∈ c.urls then c.urls else c.urls ++ [url] := by
  have hput (e : CacheEntry) (entries : List (Text × CacheEntry)) :
      (put url e entries).map (·.1) =
        if url ∈ entries.map (·.1) then entries.map (·.1) else entries.map (·.1) ++ [url] := by
    induction entries with
    | nil => rfl
    | cons x entries ih =>
      rw [put]
      split
      · rename_i hx
        simp [hx]
      · rename_i hx
        rw [List.map_cons, ih]
        simp only [List.map_cons, List.mem_cons, Ne.symm hx, false_or]
        split <;> rfl
  exact hput _ _

/-- A cache keeps what was stored since everything was dropped, and nothing else. -/
structure Retains (lifetime : Rat) (uses : List CacheUse) (c : Cache) : Prop where
  lifetime_eq : c.lifetime = lifetime
  lookup : ∀ url, c.entries.lookup url =
    (lastStored? uses url).map fun x => ⟨x.1, x.2 + lifetime⟩
  nodup : c.urls.Nodup
  mem_urls : ∀ url, url ∈ c.urls ↔ url ∈ storedUrls uses

variable {lifetime : Rat} {c : Cache}

theorem retains_empty (lifetime : Rat) : Retains lifetime [] (empty lifetime) :=
  ⟨rfl, fun _ => rfl, .nil, fun _ => .rfl⟩

/-- What a use preserves. -/
theorem Retains.use (h : Retains lifetime uses c) (x : CacheUse) :
    Retains lifetime (uses ++ [x]) (c.use x) := by
  cases x with
  | clear =>
    refine ⟨h.lifetime_eq, fun url => ?_, .nil, fun url => ?_⟩
    · rw [lastStored?, sinceClear_clear]
      rfl
    · rw [storedUrls, sinceClear_clear]
      exact .rfl
  | get url' now =>
    refine ⟨h.lifetime_eq, fun url => ?_, h.nodup, fun url => ?_⟩
    · rw [lastStored?_concat uses rfl]
      exact h.lookup url
    · rw [mem_storedUrls_concat uses rfl]
      exact (h.mem_urls url).trans (or_iff_left nofun).symm
  | set url' body now =>
    refine ⟨h.lifetime_eq, fun url => ?_, ?_, fun url => ?_⟩
    · rw [lastStored?_concat uses rfl, CacheUse.stored?]
      by_cases hurl : url' = url
      · rw [if_pos hurl, ← hurl]
        exact (lookup_put_self _ _ _).trans (by rw [h.lifetime_eq]; rfl)
      · rw [if_neg hurl]
        exact (lookup_put_of_ne (Ne.symm hurl) _ _).trans (h.lookup url)
    · rw [Cache.use, urls_set]
      split
      · exact h.nodup
      · rename_i hnew
        refine List.nodup_append.mpr ⟨h.nodup, List.nodup_singleton _, fun a ha b hb hab => ?_⟩
        rw [List.mem_singleton] at hb
        exact hnew (hb ▸ hab ▸ ha)
    · rw [Cache.use, urls_set, mem_storedUrls_concat uses rfl, ← h.mem_urls,
        CacheUse.storedUrl?, Option.some.injEq]
      split
      · rename_i hold
        exact (or_iff_left_of_imp fun hurl => hurl ▸ hold).symm
      · rw [List.mem_append, List.mem_singleton, eq_comm]

theorem retains_after (lifetime : Rat) (uses : List CacheUse) :
    Retains lifetime uses ((empty lifetime).after uses) := by
  induction uses using List.reverseRecOn with
  | nil => exact retains_empty lifetime
  | append_singleton uses x ih =>
    rw [after, List.foldl_append]
    exact ih.use x

/-- What a cache gives out under an address is the body that was stored there last since everything
was dropped, if less than its lifetime has passed, and nothing otherwise. Its size is the number of
addresses at which something was stored since. -/
theorem after_answers (lifetime : Rat) (uses : List CacheUse) :
    let c := (empty lifetime).after uses
    (∀ url now body, c.get? url now = some body ↔
      ∃ stored, lastStored? uses url = some (body, stored) ∧ now < stored + lifetime) ∧
    c.size = (storedUrls uses).dedup.length := by
  intro c
  have hretains := retains_after lifetime uses
  constructor
  · intro url now body
    rw [get?, hretains.lookup url]
    rcases lastStored? uses url with _ | ⟨body', stored⟩
    · simp
    · simp only [Option.map_some]
      split
      · rename_i hexpired
        refine iff_of_false (Option.some_ne_none body).symm ?_
        rintro ⟨_, ⟨⟩, hnow⟩
        exact absurd hexpired (Rat.not_le.mpr hnow)
      · rename_i hlive
        constructor
        · rintro ⟨⟩
          exact ⟨stored, rfl, Rat.not_le.mp hlive⟩
        · rintro ⟨_, ⟨⟩, -⟩
          rfl
  · have hperm : c.urls.Perm (storedUrls uses).dedup :=
      (List.perm_ext_iff_of_nodup hretains.nodup (List.nodup_dedup _)).mpr fun url => by
        rw [hretains.mem_urls, List.mem_dedup]
    rw [size, ← hperm.length_eq, urls, List.length_map]

end Cache

end ProviderCatalog.Remote
