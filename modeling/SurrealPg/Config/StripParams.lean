import Mathlib.Data.List.TakeWhile
import SurrealPg.Config.PgConfig

/-!
# Two readings of one query string

The store reads its parameters out of the URL and then hands sqlx the URL without them. The two
steps find the query string differently: the first takes the piece between the first and the
second `?`, the second everything after the first `?`; both stop at `#`. Cut into pairs, the first
reading is the beginning of the second up to the pair in which the second `?` stands, and that
pair without what follows the `?`.

So the readings agree as long as there is no second `?`. With one, they can only agree about the
custom parameters if none follows it, or by the accident that the one bare name the first reading
sees cut off is the one the second finds later.

What the second step hands on is built in one buffer, with a flag for the first pair. It is the
join of the pairs whose key is not custom, and the flag is right also where such a pair is empty.
-/

namespace SurrealPg

open Text

/-! ## Stripping -/

/-- Custom query parameters that must not be passed to sqlx. -/
def CUSTOM_PARAMS : List String :=
  ["max_connections", "min_connections", "max_lifetime", "auto_create_table", "table_name",
   "isolation_level", "persistent_statements", "connect_timeout", "idle_timeout",
   "slow_acquire_threshold_secs", "slow_statements_threshold_secs", "pooler", "hash_partitions"]

/-- The name a pair gives a value to, or the whole of it. -/
def pairKey (pair : Text) : Text := ((splitOnce '=' pair).map Prod.fst).getD pair

def isCustom (pair : Text) : Bool := CUSTOM_PARAMS.contains (String.ofList (pairKey pair))

/-- The part of the query string `strip_custom_params` filters. -/
def queryPart (query : Text) : Text := query.takeWhile (· ≠ '#')

/-- The loop over the pairs: what is in the buffer, and whether nothing was pushed yet. -/
def stripPairs (filtered : Text) (first : Bool) : List Text → Text
  | [] => filtered
  | pair :: pairs =>
    if isCustom pair then stripPairs filtered first pairs
    else stripPairs ((if first then filtered else filtered ++ ['&']) ++ pair) false pairs

/-- Strip our custom query parameters from a PostgreSQL URL. -/
def stripCustomParams (url : Text) : Text :=
  match splitOnce '?' url with
  | none => url
  | some (base, query) =>
    let filtered := stripPairs [] true ((queryPart query).splitOn '&')
    let fragment := query.dropWhile (· ≠ '#')
    if filtered.isEmpty then base ++ fragment else base ++ '?' :: filtered ++ fragment

namespace PgConfig

end PgConfig

namespace Text

variable {c : Char} {s a b : Text}

theorem splitOnce_eq_some_iff :
    splitOnce c s = some (a, b) ↔ s = a ++ c :: b ∧ c ∉ a := by
  induction s generalizing a with
  | nil => simp [splitOnce]
  | cons x xs ih =>
    rw [splitOnce]
    by_cases hx : x = c
    · rw [if_pos hx]
      cases a with
      | nil => simp [hx, eq_comm]
      | cons y a =>
        simp only [Option.some.injEq, Prod.mk.injEq, List.cons_append, List.cons.injEq,
          List.mem_cons, reduceCtorEq, false_and, false_iff]
        rintro ⟨⟨rfl, -⟩, hmem⟩
        exact hmem (Or.inl hx.symm)
    · rw [if_neg hx]
      cases a with
      | nil => simp [hx]
      | cons y a =>
        constructor
        · intro h
          obtain ⟨⟨a', b'⟩, hsplit, heq⟩ := Option.map_eq_some_iff.mp h
          obtain ⟨hcons, rfl⟩ := Prod.mk.inj heq
          obtain ⟨rfl, rfl⟩ := List.cons.inj hcons
          obtain ⟨rfl, hmem⟩ := ih.mp hsplit
          exact ⟨rfl, fun h ↦ (List.mem_cons.mp h).elim (fun h ↦ hx h.symm) hmem⟩
        · rintro ⟨heq, hmem⟩
          obtain ⟨rfl, hrest⟩ := List.cons.inj heq
          rw [ih.mpr ⟨hrest, fun h ↦ hmem (List.mem_cons_of_mem _ h)⟩]
          rfl

theorem splitOnce_eq_none_iff : splitOnce c s = none ↔ c ∉ s := by
  induction s with
  | nil => simp [splitOnce]
  | cons x xs ih =>
    rw [splitOnce]
    by_cases hx : x = c
    · simp [hx]
    · simp [hx, ih, Ne.symm hx]

theorem takeWhile_ne_of_not_mem (h : c ∉ s) : s.takeWhile (· ≠ c) = s :=
  List.takeWhile_eq_self_iff.mpr fun _ hx ↦ decide_eq_true fun hxc ↦ h (hxc ▸ hx)

theorem takeWhile_ne_append (h : c ∉ a) : (a ++ c :: b).takeWhile (· ≠ c) = a := by
  have hall : ∀ x ∈ a, decide (x ≠ c) = true := fun x hx ↦ decide_eq_true fun hxc ↦ h (hxc ▸ hx)
  rw [List.takeWhile_append_of_pos hall]
  simp

theorem head?_splitOn (c : Char) (s : Text) :
    (s.splitOn c).head? = some (s.takeWhile (· ≠ c)) := by
  cases h : splitOnce c s with
  | none =>
    have hmem := splitOnce_eq_none_iff.mp h
    rw [List.splitOn_eq_singleton hmem, takeWhile_ne_of_not_mem hmem, List.head?_cons]
  | some p =>
    obtain ⟨heq, hmem⟩ := splitOnce_eq_some_iff.mp h
    rw [heq, List.splitOn_append_cons_self_of_not_mem hmem, takeWhile_ne_append hmem,
      List.head?_cons]

theorem notMem_of_mem_splitOn {p : Text} (h : p ∈ s.splitOn c) : c ∉ p := by
  induction s generalizing p with
  | nil =>
    rw [List.splitOn_nil, List.mem_singleton] at h
    rw [h]
    exact List.not_mem_nil
  | cons x xs ih =>
    obtain ⟨q, qs, hq⟩ := List.exists_cons_of_ne_nil (List.splitOn_ne_nil c xs)
    rw [List.splitOn_cons_eq_if_modifyHead] at h
    by_cases hx : (x == c) = true
    · rw [if_pos hx] at h
      rcases List.mem_cons.mp h with rfl | h
      · exact List.not_mem_nil
      · exact ih h
    · rw [if_neg hx, hq, List.modifyHead_cons] at h
      rcases List.mem_cons.mp h with rfl | h
      · have hxc : c ≠ x := fun hxc ↦ hx (beq_iff_eq.mpr hxc.symm)
        have hq : c ∉ q := ih (by rw [hq]; exact List.mem_cons_self)
        exact List.not_mem_cons_of_ne_of_not_mem hxc hq
      · exact ih (by rw [hq]; exact List.mem_cons_of_mem q h)

end Text

/-! ## What is kept -/

/-- A URL with a query: what stands before it, the query itself, and perhaps a fragment. -/
structure QueryUrl where
  base : Text
  query : Text
  fragment : Text
  base_shape : '?' ∉ base
  query_shape : '#' ∉ query
  fragment_shape : ∀ c ∈ fragment.head?, c = '#'

namespace QueryUrl

variable (u : QueryUrl)

def url : Text := u.base ++ '?' :: (u.query ++ u.fragment)

def pairs : List Text := u.query.splitOn '&'

/-- The pairs whose key is not custom, in order. -/
def foreign : List Text := u.pairs.filter fun p ↦ !isCustom p

theorem splitOnce_url : splitOnce '?' u.url = some (u.base, u.query ++ u.fragment) :=
  splitOnce_eq_some_iff.mpr ⟨rfl, u.base_shape⟩

theorem span_query : queryPart (u.query ++ u.fragment) = u.query ∧
    (u.query ++ u.fragment).dropWhile (· ≠ '#') = u.fragment := by
  have hquery : ∀ x ∈ u.query, decide (x ≠ '#') = true := fun x hx ↦
    decide_eq_true fun hxc ↦ u.query_shape (hxc ▸ hx)
  rw [queryPart, List.takeWhile_append_of_pos hquery, List.dropWhile_append_of_pos hquery]
  cases hfragment : u.fragment with
  | nil => simp
  | cons c rest =>
    obtain rfl := u.fragment_shape c (by rw [hfragment]; rfl)
    simp

end QueryUrl

theorem stripPairs_false (filtered : Text) (pairs : List Text) :
    stripPairs filtered false pairs =
      filtered ++ (pairs.filter fun p ↦ !isCustom p).flatMap ('&' :: ·) := by
  induction pairs generalizing filtered with
  | nil => simp [stripPairs]
  | cons pair pairs ih =>
    rw [stripPairs]
    cases hcustom : isCustom pair with
    | true => simp [hcustom, ih]
    | false => simp [hcustom, ih]

theorem intercalate_cons (p : Text) (ps : List Text) :
    ['&'].intercalate (p :: ps) = p ++ ps.flatMap ('&' :: ·) := by
  induction ps generalizing p with
  | nil => simp
  | cons q qs ih => rw [List.intercalate_cons_cons, ih]; simp

/-- The buffer is the join of the pairs that are kept: the flag is cleared by the first of them,
whether it is empty or not. -/
theorem stripPairs_true (pairs : List Text) :
    stripPairs [] true pairs = ['&'].intercalate (pairs.filter fun p ↦ !isCustom p) := by
  induction pairs with
  | nil => rfl
  | cons pair pairs ih =>
    rw [stripPairs]
    cases hcustom : isCustom pair with
    | true => simp [hcustom, ih]
    | false =>
      rw [if_neg Bool.false_ne_true, if_pos rfl, stripPairs_false,
        List.filter_cons_of_pos (by rw [hcustom]; rfl), intercalate_cons, List.nil_append]

/-- **Stripping keeps exactly the foreign parameters**, in their order and with the empty ones. -/
theorem stripCustomParams_url (u : QueryUrl) :
    stripCustomParams u.url =
      (if (['&'].intercalate u.foreign).isEmpty then u.base ++ u.fragment
        else u.base ++ '?' :: ['&'].intercalate u.foreign ++ u.fragment) ∧
      (['&'].intercalate u.foreign ≠ [] →
        (['&'].intercalate u.foreign).splitOn '&' = u.foreign) ∧
      ∀ url, '?' ∉ url → stripCustomParams url = url := by
  refine ⟨?_, fun hne ↦ ?_, fun url hurl ↦ ?_⟩
  · obtain ⟨hquery, hfragment⟩ := u.span_query
    rw [stripCustomParams, u.splitOnce_url]
    dsimp only
    rw [hquery, hfragment, stripPairs_true]
    rfl
  · have hpairs : ∀ p ∈ u.foreign, '&' ∉ p := fun p hp ↦
      notMem_of_mem_splitOn (List.mem_of_mem_filter hp)
    refine List.splitOn_intercalate '&' hpairs fun hnil ↦ ?_
    rw [hnil] at hne
    exact hne rfl
  · rw [stripCustomParams, splitOnce_eq_none_iff.mpr hurl]

/-- A leading and a doubled `&`, and a fragment with a `?`. -/
def doubledSeparators : QueryUrl where
  base := "postgres://host/db".toList
  query := "&sslmode=require&&table_name=kv".toList
  fragment := '#' :: "a?table_name=b".toList
  base_shape := by decide +kernel
  query_shape := by decide +kernel
  fragment_shape := fun _ hc ↦ (Option.some.inj hc).symm

theorem stripCustomParams_url_doubledSeparators :
    (['&'].intercalate doubledSeparators.foreign).splitOn '&' = doubledSeparators.foreign ∧
      stripCustomParams "postgres://host/db".toList = "postgres://host/db".toList :=
  ⟨(stripCustomParams_url doubledSeparators).2.1 (by decide +kernel),
    (stripCustomParams_url doubledSeparators).2.2 _ (by decide +kernel)⟩

example : stripCustomParams doubledSeparators.url =
    "postgres://host/db?&sslmode=require&#a?table_name=b".toList := by
  decide +kernel

/-! ## What each of them reads -/

namespace PgConfig

theorem applied_ne_theirs {α : Type} (c : PgConfig) (value : Option α) (f : α → PgConfig) :
    c.applied value f ≠ .theirs := by
  cases value <;> exact nofun

theorem mergeMaxConnections_ne_theirs (c : PgConfig) (value : Text) :
    c.mergeMaxConnections value ≠ .theirs := by
  unfold mergeMaxConnections
  split
  · exact nofun
  · exact nofun
  · split_ifs <;> exact nofun

theorem mergeMinConnections_ne_theirs (c : PgConfig) (value : Text) :
    c.mergeMinConnections value ≠ .theirs := by
  unfold mergeMinConnections
  split
  · exact nofun
  · split_ifs <;> exact nofun

theorem mergeTableName_ne_theirs (c : PgConfig) (value : Text) :
    c.mergeTableName value ≠ .theirs := by
  unfold mergeTableName
  split <;> exact nofun

theorem mergeIsolationLevel_ne_theirs (c : PgConfig) (value : Text) :
    c.mergeIsolationLevel value ≠ .theirs := by
  unfold mergeIsolationLevel
  split <;> exact nofun

theorem mergeHashPartitions_ne_theirs (c : PgConfig) (value : Text) :
    c.mergeHashPartitions value ≠ .theirs := by
  unfold mergeHashPartitions
  split
  · exact nofun
  · exact nofun
  · split_ifs <;> exact nofun

theorem mergeParam_ne_theirs (c : PgConfig) (value : Text) (p : Param) :
    c.mergeParam value p ≠ .theirs := by
  cases p with
  | maxConnections => exact mergeMaxConnections_ne_theirs c value
  | minConnections => exact mergeMinConnections_ne_theirs c value
  | tableName => exact mergeTableName_ne_theirs c value
  | isolationLevel => exact mergeIsolationLevel_ne_theirs c value
  | hashPartitions => exact mergeHashPartitions_ne_theirs c value
  | _ => exact applied_ne_theirs c _ _

/-- The first reading: between the first and the second `?`, up to `#`. -/
theorem queryOf_eq (url : Text) :
    queryOf url = (splitOnce '?' url).map fun p ↦ (queryPart p.2).takeWhile (· ≠ '?') := by
  rw [queryOf]
  cases h : splitOnce '?' url with
  | none =>
    rw [List.splitOn_eq_singleton (splitOnce_eq_none_iff.mp h)]
    rfl
  | some p =>
    obtain ⟨heq, hmem⟩ := splitOnce_eq_some_iff.mp h
    have hpiece : (p.2.splitOn '?')[0]? = some (p.2.takeWhile (· ≠ '?')) := by
      rw [← List.head?_eq_getElem?, head?_splitOn]
    rw [heq, List.splitOn_append_cons_self_of_not_mem hmem, List.getElem?_cons_succ, hpiece,
      Option.map_some, Option.map_some, head?_splitOn, Option.getD_some, queryPart,
      List.takeWhile_takeWhile, List.takeWhile_takeWhile]
    refine congrArg (fun q ↦ some (List.takeWhile q p.2)) (funext fun x ↦ ?_)
    exact decide_eq_decide.mpr and_comm

end PgConfig

end SurrealPg
