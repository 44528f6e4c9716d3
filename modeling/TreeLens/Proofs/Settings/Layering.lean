import Mathlib.Data.List.Induction
import Mathlib.Data.List.Nodup
import TreeLens.Settings.Loading

/-!
# Layers of file types

Settings are laid over each other by the keys of their file types as they are written, with
any dots in front. Only when a table of file types is made from the result are those dots
taken away, and its pairs then come in no particular order. An extension that is written
in two ways keeps two pairs, and the one that comes last decides.

So what an extension may end up with is what the last word is on any one way to write
it. The language of the last layer that has the extension in any form is always among these,
and it is the only one exactly if there is no other last word.
-/

namespace TreeLens

section Lookup

variable {pairs : List (String × String)} {key value : String}

theorem mem_of_lookup (found : pairs.lookup key = some value) : (key, value) ∈ pairs := by
  obtain ⟨front, back, rfl, -⟩ := List.lookup_eq_some_iff.mp found
  simp

theorem not_mem_of_lookup (missed : pairs.lookup key = none) : (key, value) ∉ pairs := by
  intro member
  simpa using List.lookup_eq_none_iff.mp missed _ member

/-- Where no key is there twice, looking up a key finds its pair. -/
theorem lookup_eq_some_iff_mem (nodup : (pairs.map Prod.fst).Nodup) :
    pairs.lookup key = some value ↔ (key, value) ∈ pairs := by
  refine ⟨mem_of_lookup, ?_⟩
  intro member
  obtain ⟨front, back, rfl⟩ := List.append_of_mem member
  rw [List.map_append, List.nodup_append] at nodup
  refine List.lookup_eq_some_iff.mpr ⟨front, back, rfl, ?_⟩
  intro pair inFront
  have apart := nodup.2.2 pair.1 (List.mem_map_of_mem inFront) key (by simp)
  simpa using apart.symm

end Lookup

namespace Filetypes

variable {mappings : List (String × String)} {extension key language : String}

/-- File types with the leading dots of their keys taken away. -/
def bare (mappings : List (String × String)) : List (String × String) :=
  mappings.map (Prod.map stripDots id)

theorem mem_bare_iff :
    (extension, language) ∈ bare mappings ↔
      ∃ key, stripDots key = extension ∧ (key, language) ∈ mappings := by
  simp only [bare, List.mem_map, Prod.map_apply, Prod.mk.injEq, Prod.exists, id_eq]
  constructor
  · rintro ⟨key, _, member, spelled, rfl⟩
    exact ⟨key, spelled, member⟩
  · rintro ⟨key, spelled, member⟩
    exact ⟨key, language, member, spelled, rfl⟩

theorem entries_foldl_add (filetypes : Filetypes) :
    (mappings.foldl (fun filetypes (extension, language) =>
      filetypes.add (stripDots extension) language) filetypes).entries =
      (bare mappings).reverse ++ filetypes.entries := by
  induction mappings generalizing filetypes with
  | nil => rfl
  | cons pair rest ih =>
    obtain ⟨key, language⟩ := pair
    rw [List.foldl_cons, ih]
    simp [bare, add]

/-- The last pair for an extension decides, and if there is none the built-in mapping. -/
theorem language?_withMappings :
    (withMappings mappings).language? extension =
      ((bare mappings).reverse.lookup extension).or (builtin.language? extension) := by
  rw [language?, withMappings, entries_foldl_add, List.lookup_append]
  rfl

/-- There is an order of the pairs in which the table made from them gives this answer. -/
def MayAnswer (mappings : List (String × String)) (extension : String) (answer : Option String) :
    Prop :=
  ∃ order : List (String × String), order.Perm mappings ∧
    (withMappings order).language? extension = answer

/-- An extension that is not found in one order has no pair. -/
theorem not_mem_of_lookup_bare {order : List (String × String)} (same : order.Perm mappings)
    (missed : (bare order).reverse.lookup extension = none)
    (spelled : stripDots key = extension) : (key, language) ∉ mappings := by
  intro member
  have inBare : (extension, language) ∈ bare order :=
    mem_bare_iff.mpr ⟨key, spelled, same.mem_iff.mpr member⟩
  exact not_mem_of_lookup missed (List.mem_reverse.mpr inBare)

theorem not_mem_of_mayAnswer_none (unanswered : MayAnswer mappings extension none)
    (spelled : stripDots key = extension) : (key, language) ∉ mappings := by
  obtain ⟨order, same, missed⟩ := unanswered
  rw [language?_withMappings, Option.or_eq_none_iff] at missed
  exact not_mem_of_lookup_bare same missed.1 spelled

/-- Where no extension is left to the built-in mapping, an extension may get the languages
of all the pairs for it: any of them can come last. -/
theorem mayAnswer_some_iff
    (covered : (∀ key language, stripDots key = extension → (key, language) ∉ mappings) →
      builtin.language? extension = none) :
    MayAnswer mappings extension (some language) ↔
      ∃ key, stripDots key = extension ∧ (key, language) ∈ mappings := by
  constructor
  · rintro ⟨order, same, answered⟩
    rw [language?_withMappings, Option.or_eq_some_iff] at answered
    rcases answered with listed | ⟨missed, builtIn⟩
    · have member := List.mem_reverse.mp (mem_of_lookup listed)
      obtain ⟨key, spelled, inOrder⟩ := mem_bare_iff.mp member
      exact ⟨key, spelled, same.mem_iff.mp inOrder⟩
    · have unknown := covered fun _ _ => not_mem_of_lookup_bare same missed
      rw [unknown] at builtIn
      cases builtIn
  · rintro ⟨key, spelled, member⟩
    refine ⟨mappings.erase (key, language) ++ [(key, language)], ?_, ?_⟩
    · exact (List.perm_append_singleton _ _).trans (List.perm_cons_erase member).symm
    · rw [language?_withMappings]
      simp [bare, spelled]

end Filetypes

namespace Settings

open Filetypes (stripDots bare MayAnswer)

variable {layer upper lower : Settings} {layers : List Settings}
  {pairs : List (String × String)} {extension key language : String}

/-- The usual settings with layers laid over them in order. -/
def layered (layers : List Settings) : Settings :=
  layers.foldl (fun lower upper => upper.onto lower) usual

/-- All settings are the user's laid over the usual ones, and those of a named file over
both. -/
theorem loadAll_eq_layered (files : FileSystem) (environment : Environment)
    (explicit : Option String) :
    loadAll files environment explicit = (do
      let user ← loadUser files environment
      let named ← explicit.mapM (load files)
      return layered (user.toList ++ named.toList)) := by
  rw [loadAll]
  cases loadUser files environment with
  | error fault => rfl
  | ok user =>
    cases explicit with
    | none => cases user <;> rfl
    | some path =>
      cases loaded : load files path with
      | error fault => simp [loaded]
      | ok named => simp [loaded]; cases user <;> rfl

/-- No two keys of a layer are for the same extension. -/
def Unambiguous (settings : Settings) : Prop :=
  ((bare settings.filetypes).map Prod.fst).Nodup

instance (settings : Settings) : Decidable settings.Unambiguous :=
  inferInstanceAs (Decidable (List.Nodup _))

/-- What the last layer that has an answer answers. -/
def lastAnswer? (answer : Settings → Option String) (layers : List Settings) : Option String :=
  layers.reverse.findSome? answer

/-- The language of the last layer that has a key for an extension, with or without dots in
front, or else the built-in language. -/
def latestLanguage? (layers : List Settings) (extension : String) : Option String :=
  (lastAnswer? (fun layer => (bare layer.filetypes).lookup extension) layers).or
    (Filetypes.builtin.language? extension)

/-- The language of the last layer that has exactly this key. The usual settings are the
lowest layer. -/
def latestSpelled? (layers : List Settings) (key : String) : Option String :=
  lastAnswer? (fun layer => layer.filetypes.lookup key) (usual :: layers)

theorem lastAnswer?_cons {answer : Settings → Option String} :
    lastAnswer? answer (layer :: layers) = (lastAnswer? answer layers).or (answer layer) := by
  simp [lastAnswer?, List.findSome?_append]

theorem lastAnswer?_concat {answer : Settings → Option String} :
    lastAnswer? answer (layers ++ [layer]) = (answer layer).or (lastAnswer? answer layers) := by
  rw [lastAnswer?, List.reverse_concat, List.findSome?_cons]
  cases answer layer <;> rfl

theorem lookup_putPair {pair : String × String} :
    (putPair pairs pair).lookup key = if key = pair.1 then some pair.2 else pairs.lookup key := by
  fun_induction putPair pairs pair <;> grind

theorem keys_putPair {pair : String × String} :
    (putPair pairs pair).map Prod.fst =
      if pair.1 ∈ pairs.map Prod.fst then pairs.map Prod.fst
      else pairs.map Prod.fst ++ [pair.1] := by
  fun_induction putPair pairs pair <;> grind

theorem nodup_keys_putPair (nodup : (pairs.map Prod.fst).Nodup) (pair : String × String) :
    ((putPair pairs pair).map Prod.fst).Nodup := by
  rw [keys_putPair]
  split
  case isTrue => exact nodup
  case isFalse absent => exact List.concat_eq_append ▸ nodup.concat absent

theorem nodup_keys_foldl_putPair {added : List (String × String)}
    (nodup : (pairs.map Prod.fst).Nodup) : ((added.foldl putPair pairs).map Prod.fst).Nodup := by
  induction added generalizing pairs with
  | nil => exact nodup
  | cons pair rest ih => exact ih (nodup_keys_putPair nodup pair)

/-- The last of the added pairs with a key counts, and only if there is none the old pair. -/
theorem lookup_foldl_putPair {added : List (String × String)} :
    (added.foldl putPair pairs).lookup key = (added.reverse.lookup key).or (pairs.lookup key) := by
  induction added generalizing pairs with
  | nil => rfl
  | cons pair rest ih =>
    obtain ⟨other, value⟩ := pair
    rw [List.foldl_cons, ih, lookup_putPair, List.reverse_cons, List.lookup_append,
      Option.or_assoc]
    congr 1
    split
    case isTrue same => simp [same]
    case isFalse differ => simp [List.lookup_cons, beq_false_of_ne differ]

/-- A layer without ambiguity has each key once, as it is written. -/
theorem Unambiguous.nodup_keys (unambiguous : layer.Unambiguous) :
    (layer.filetypes.map Prod.fst).Nodup := by
  refine List.Nodup.of_map stripDots ?_
  rw [Unambiguous, bare, List.map_map] at unambiguous
  rwa [List.map_map]

/-- Keys of the upper settings go, the others stay as they were. -/
theorem lookup_filetypes_onto (unambiguous : upper.Unambiguous) :
    (upper.onto lower).filetypes.lookup key =
      (upper.filetypes.lookup key).or (lower.filetypes.lookup key) := by
  have nodup := unambiguous.nodup_keys
  have nodupReverse : (upper.filetypes.reverse.map Prod.fst).Nodup := by
    rwa [List.map_reverse, List.nodup_reverse]
  have reversed : upper.filetypes.reverse.lookup key = upper.filetypes.lookup key := by
    apply Option.ext
    intro value
    rw [lookup_eq_some_iff_mem nodupReverse, lookup_eq_some_iff_mem nodup, List.mem_reverse]
  rw [onto, lookup_foldl_putPair, reversed]

theorem layered_concat : layered (layers ++ [layer]) = layer.onto (layered layers) := by
  rw [layered, List.foldl_concat]
  rfl

theorem nodup_keys_layered : ((layered layers).filetypes.map Prod.fst).Nodup := by
  induction layers using List.reverseRecOn with
  | nil => decide
  | append_singleton layers layer ih =>
    rw [layered_concat]
    exact nodup_keys_foldl_putPair ih

theorem lookup_filetypes_layered (unambiguous : ∀ layer ∈ layers, layer.Unambiguous) :
    (layered layers).filetypes.lookup key = latestSpelled? layers key := by
  induction layers using List.reverseRecOn with
  | nil =>
    rw [latestSpelled?, lastAnswer?_cons]
    rfl
  | append_singleton layers layer ih =>
    have lowerUnambiguous := fun below member =>
      unambiguous below (List.mem_append_left _ member)
    rw [layered_concat, lookup_filetypes_onto (unambiguous layer (by simp)),
      ih lowerUnambiguous, latestSpelled?, latestSpelled?, ← List.cons_append,
      lastAnswer?_concat]

/-- The layers keep a pair for each key: that of the last layer which has the key. -/
theorem mem_filetypes_layered_iff (unambiguous : ∀ layer ∈ layers, layer.Unambiguous) :
    (key, language) ∈ (layered layers).filetypes ↔ latestSpelled? layers key = some language := by
  rw [← lookup_eq_some_iff_mem nodup_keys_layered, lookup_filetypes_layered unambiguous]

/-- A layer that does not have an extension has none of the keys for it. -/
theorem lookup_eq_none_of_bare (spelled : stripDots key = extension)
    (missed : (bare layer.filetypes).lookup extension = none) :
    layer.filetypes.lookup key = none := by
  rw [Option.eq_none_iff_forall_ne_some]
  intro language found
  have member := Filetypes.mem_bare_iff.mpr ⟨key, spelled, mem_of_lookup found⟩
  exact not_mem_of_lookup missed member

/-- The last layer that has an extension has it by some key, and is the last to have that
key. -/
theorem exists_key_of_lastAnswer? (unambiguous : ∀ layer ∈ layers, layer.Unambiguous)
    (answered : lastAnswer? (fun layer => (bare layer.filetypes).lookup extension) layers =
      some language) :
    ∃ key, stripDots key = extension ∧
      lastAnswer? (fun layer => layer.filetypes.lookup key) layers = some language := by
  induction layers using List.reverseRecOn with
  | nil => cases answered
  | append_singleton layers layer ih =>
    have lowerUnambiguous := fun below member =>
      unambiguous below (List.mem_append_left _ member)
    have upperUnambiguous := unambiguous layer (by simp)
    simp only [lastAnswer?_concat, Option.or_eq_some_iff] at answered ⊢
    rcases answered with found | ⟨missed, below⟩
    · have member := (lookup_eq_some_iff_mem upperUnambiguous).mp found
      obtain ⟨key, spelled, inLayer⟩ := Filetypes.mem_bare_iff.mp member
      have written := (lookup_eq_some_iff_mem upperUnambiguous.nodup_keys).mpr inLayer
      exact ⟨key, spelled, .inl written⟩
    · obtain ⟨key, spelled, inLower⟩ := ih lowerUnambiguous below
      exact ⟨key, spelled, .inr ⟨lookup_eq_none_of_bare spelled missed, inLower⟩⟩

/-- The usual settings have the built-in mapping, so they may be taken for the lowest layer. -/
theorem latestLanguage?_eq :
    latestLanguage? layers extension =
      lastAnswer? (fun layer => (bare layer.filetypes).lookup extension) (usual :: layers) := by
  have usualBare : bare usual.filetypes = Filetypes.builtin.entries := by decide
  rw [lastAnswer?_cons, usualBare]
  rfl

theorem exists_key_of_latestLanguage? (unambiguous : ∀ layer ∈ layers, layer.Unambiguous)
    (latest : latestLanguage? layers extension = some language) :
    ∃ key, stripDots key = extension ∧ latestSpelled? layers key = some language := by
  rw [latestLanguage?_eq] at latest
  refine exists_key_of_lastAnswer? ?_ latest
  exact List.forall_mem_cons.mpr ⟨by decide, unambiguous⟩

theorem latestSpelled?_eq_none (spelled : stripDots key = extension)
    (missed : latestLanguage? layers extension = none) : latestSpelled? layers key = none := by
  rw [latestLanguage?_eq, lastAnswer?, List.findSome?_eq_none_iff] at missed
  rw [latestSpelled?, lastAnswer?, List.findSome?_eq_none_iff]
  exact fun layer member => lookup_eq_none_of_bare spelled (missed layer member)

/-- An extension may get what the last word is on any one way to write it. -/
theorem mayAnswer_layered_iff (unambiguous : ∀ layer ∈ layers, layer.Unambiguous) :
    MayAnswer (layered layers).filetypes extension (some language) ↔
      ∃ key, stripDots key = extension ∧ latestSpelled? layers key = some language := by
  simp only [← mem_filetypes_layered_iff unambiguous]
  refine Filetypes.mayAnswer_some_iff ?_
  intro noPair
  have unknown : latestLanguage? layers extension = none := by
    rw [Option.eq_none_iff_forall_ne_some]
    intro language latest
    obtain ⟨key, spelled, last⟩ := exists_key_of_latestLanguage? unambiguous latest
    exact noPair key language spelled ((mem_filetypes_layered_iff unambiguous).mpr last)
  exact (Option.or_eq_none_iff.mp unknown).2

/-- The language of the last layer that has the extension is among what it may get. -/
theorem mayAnswer_latestLanguage? (unambiguous : ∀ layer ∈ layers, layer.Unambiguous) :
    MayAnswer (layered layers).filetypes extension (latestLanguage? layers extension) := by
  cases latest : latestLanguage? layers extension with
  | some language =>
    rw [mayAnswer_layered_iff unambiguous]
    exact exists_key_of_latestLanguage? unambiguous latest
  | none =>
    refine ⟨_, .rfl, ?_⟩
    rw [Option.eq_none_iff_forall_ne_some]
    intro language answered
    obtain ⟨key, spelled, last⟩ := (mayAnswer_layered_iff unambiguous).mp ⟨_, .rfl, answered⟩
    rw [latestSpelled?_eq_none spelled latest] at last
    cases last

/-- Settings are laid over each other by keys as they are written. What an extension may get,
as the pairs come in one order or another, is what the last word is on any one of its keys.
The language of the last layer that has any of them is always among these, and is certain
exactly if all last words on the keys agree with it. -/
theorem layered_language?_last_words {layers : List Settings}
    (unambiguous : ∀ layer ∈ layers, layer.Unambiguous) (extension : String) :
    (∀ language, MayAnswer (layered layers).filetypes extension (some language) ↔
      ∃ key, stripDots key = extension ∧ latestSpelled? layers key = some language) ∧
    MayAnswer (layered layers).filetypes extension (latestLanguage? layers extension) ∧
    ((∀ order : List (String × String), order.Perm (layered layers).filetypes →
        (Filetypes.withMappings order).language? extension = latestLanguage? layers extension) ↔
      ∀ key language, stripDots key = extension → latestSpelled? layers key = some language →
        latestLanguage? layers extension = some language) := by
  refine ⟨fun language => mayAnswer_layered_iff unambiguous,
    mayAnswer_latestLanguage? unambiguous, ?_, ?_⟩
  · intro certain key language spelled last
    obtain ⟨order, same, answered⟩ := (mayAnswer_layered_iff unambiguous).mpr ⟨key, spelled, last⟩
    rw [← certain order same, answered]
  · intro agree order same
    cases answered : (Filetypes.withMappings order).language? extension with
    | some language =>
      obtain ⟨key, spelled, last⟩ :=
        (mayAnswer_layered_iff unambiguous).mp ⟨order, same, answered⟩
      exact (agree key language spelled last).symm
    | none =>
      symm
      rw [Option.eq_none_iff_forall_ne_some]
      intro language latest
      obtain ⟨key, spelled, last⟩ := exists_key_of_latestLanguage? unambiguous latest
      exact Filetypes.not_mem_of_mayAnswer_none ⟨order, same, answered⟩ spelled
        ((mem_filetypes_layered_iff unambiguous).mpr last)

/-- The user gives Rust files another language, with a dot, and may or may not get it. Two
keys of two layers that agree on a language do no harm. -/
theorem layered_language?_last_words_dotted :
    let layers : List Settings :=
      [{ filetypes := [(".rs", "ron"), ("md", "markdown")] },
        { filetypes := [("..md", "markdown")] }]
    (∀ layer ∈ layers, layer.Unambiguous) ∧
      latestLanguage? layers "rs" = some "ron" ∧
      MayAnswer (layered layers).filetypes "rs" (some "ron") ∧
      MayAnswer (layered layers).filetypes "rs" (some "rust") ∧
      ∀ order : List (String × String), order.Perm (layered layers).filetypes →
        (Filetypes.withMappings order).language? "md" = some "markdown" := by
  intro layers
  have unambiguous : ∀ layer ∈ layers, layer.Unambiguous := by decide +kernel
  obtain ⟨mayGet, -, -⟩ := layered_language?_last_words unambiguous "rs"
  obtain ⟨-, -, certain⟩ := layered_language?_last_words unambiguous "md"
  have latest : latestLanguage? layers "md" = some "markdown" := by decide +kernel
  refine ⟨unambiguous, by decide +kernel, ?_, ?_, ?_⟩
  · exact (mayGet "ron").mpr ⟨".rs", by decide +kernel⟩
  · exact (mayGet "rust").mpr ⟨"rs", by decide +kernel⟩
  · rw [← latest]
    refine certain.mpr ?_
    intro key language spelled last
    have member := (mem_filetypes_layered_iff unambiguous).mpr last
    have merged : (layered layers).filetypes =
        [("rs", "rust"), (".rs", "ron"), ("md", "markdown"), ("..md", "markdown")] := by
      decide +kernel
    simp only [merged, List.mem_cons, Prod.mk.injEq, List.not_mem_nil, or_false] at member
    rcases member with ⟨rfl, -⟩ | ⟨rfl, -⟩ | ⟨-, rfl⟩ | ⟨-, rfl⟩
    · exact absurd spelled (by decide +kernel)
    · exact absurd spelled (by decide +kernel)
    · exact latest
    · exact latest

/-- A later layer does not always go for an extension: its key with a dot may come before
the usual one. -/
theorem later_layer_is_overruled :
    ¬ ∀ layers : List Settings, (∀ layer ∈ layers, layer.Unambiguous) →
      ∀ extension, stripDots extension = extension →
        ∀ order : List (String × String), order.Perm (layered layers).filetypes →
          (Filetypes.withMappings order).language? extension =
            latestLanguage? layers extension := by
  intro always
  have answered := always [{ filetypes := [(".rs", "ron")] }] (by decide +kernel) "rs"
    (by decide +kernel) [(".rs", "ron"), ("rs", "rust")] (by decide +kernel)
  revert answered
  decide +kernel

end Settings

end TreeLens
