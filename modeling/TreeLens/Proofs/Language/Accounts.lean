import Mathlib.Data.List.Perm.Basic
import TreeLens.Proofs.Language.Pool

/-!
# The accounts of a pool

Whoever takes a parser from a pool returns it later, under the identifier it was taken
under, or never. In between other parsers are taken and returned, texts are parsed, and the
pool may be cleared. However this is interleaved, the books balance: for every language the
parsers that wait and those that are out are together the ones that were made since the pool
was last cleared and the ones that were out at that time. It is enough that each single use
keeps the balance.

A parser that waits was made for the language it waits under. Therefore a pool that serves a
language has it registered, and the only fault in asking for a parser is that the
language is not.
-/

namespace TreeLens

namespace Pool

variable {registry : Registry} {language : String} {pool : Pool}

theorem idle_set_of_ne {other : String} (apart : other ≠ language) (parsers : List Parser) :
    (pool.set language parsers).idle other = pool.idle other :=
  if_neg apart

@[simp]
theorem size_set (parsers : List Parser) : (pool.set language parsers).size language =
    parsers.length := by
  rw [size, idle_set]

theorem size_set_of_ne {other : String} (apart : other ≠ language) (parsers : List Parser) :
    (pool.set language parsers).size other = pool.size other := by
  rw [size, idle_set_of_ne apart, size]

@[simp]
theorem size_release (parser : Parser) :
    (pool.release language parser).size language = pool.size language + 1 := by
  rw [release, size_set, List.length_cons, size]

theorem size_release_of_ne {other : String} (apart : other ≠ language) (parser : Parser) :
    (pool.release language parser).size other = pool.size other :=
  size_set_of_ne apart _

/-! ## Making parsers -/

theorem create_eq_ok_iff {parser : Parser} :
    create registry language = .ok parser ↔
      parser.language = language ∧ registry.get? language = some parser.grammar := by
  rcases parser with ⟨name, grammar⟩
  rw [create, Registry.require]
  cases registry.get? language with
  | none => simp [Except.map]
  | some found => simp [Except.map, eq_comm]

/-- Making a parser fails for want of the language and for no other reason. -/
theorem create_eq_error_iff {fault : Fault} :
    create registry language = .error fault ↔
      registry.contains language = false ∧ fault = .languageNotFound language := by
  rw [create, Registry.require, Registry.contains]
  cases registry.get? language with
  | none => simp [Except.map, eq_comm]
  | some found => simp [Except.map]

/-- Number of parsers that are made when one is asked for: one, if none is waiting and one
can be made. -/
def makes (registry : Registry) (language : String) (pool : Pool) : Nat :=
  match pool.idle language, create registry language with
  | [], .ok _ => 1
  | _, _ => 0

/-- A parser that is handed out waited before or was made. -/
theorem size_of_acquire {parser : Parser} {taken : Pool}
    (acquired : pool.acquire registry language = .ok (parser, taken)) :
    taken.size language + 1 = pool.size language + pool.makes registry language := by
  have way := acquires registry language pool
  rw [acquired] at way
  cases way with
  | idle _ rest waiting => simp [makes, size, idle_set, waiting]
  | made _ nobody created => simp [makes, size, nobody, created]

theorem idle_of_acquire_of_ne {parser : Parser} {taken : Pool} {other : String}
    (acquired : pool.acquire registry language = .ok (parser, taken)) (apart : other ≠ language) :
    taken.idle other = pool.idle other := by
  have way := acquires registry language pool
  rw [acquired] at way
  cases way with
  | idle => exact idle_set_of_ne apart _
  | made => rfl

theorem size_of_acquire_of_ne {parser : Parser} {taken : Pool} {other : String}
    (acquired : pool.acquire registry language = .ok (parser, taken)) (apart : other ≠ language) :
    taken.size other = pool.size other :=
  congrArg List.length (idle_of_acquire_of_ne acquired apart)

theorem makes_of_acquire_error {fault : Fault}
    (refused : pool.acquire registry language = .error fault) :
    pool.makes registry language = 0 := by
  have way := acquires registry language pool
  rw [refused] at way
  cases way with
  | refused _ nobody failed => simp [makes, nobody, failed]

/-! ## Parsing -/

theorem parse_of_error {fault : Fault} (refused : pool.acquire registry language = .error fault)
    (text : String) : pool.parse registry language text = (.error fault, pool) := by
  rw [parse, refused]

theorem parse_of_ok {parser : Parser} {taken : Pool}
    (acquired : pool.acquire registry language = .ok (parser, taken)) (text : String) :
    pool.parse registry language text =
      (treeOf language text (parser.grammar.parse? text), taken.release language parser) := by
  rw [parse, acquired]

/-- What comes of an answer is no tree, a defective one or a good one, never a language that
is not there. -/
theorem treeOf_ne_languageNotFound (text name : String) (answer : Option Outline) :
    treeOf language text answer ≠ .error (.languageNotFound name) := by
  cases answer with
  | none => simp [treeOf]
  | some outline =>
    rw [treeOf]
    split <;> simp [Fault.ofDefect]

/-- Parsing keeps the parser it has made, and returns the one it has taken. -/
theorem size_parse (text : String) :
    (pool.parse registry language text).2.size language =
      pool.size language + pool.makes registry language := by
  cases acquired : pool.acquire registry language with
  | error fault => rw [parse_of_error acquired, makes_of_acquire_error acquired, Nat.add_zero]
  | ok result =>
    rw [parse_of_ok acquired, size_release]
    exact size_of_acquire acquired

theorem size_parse_of_ne {other : String} (apart : other ≠ language) (text : String) :
    (pool.parse registry language text).2.size other = pool.size other := by
  cases acquired : pool.acquire registry language with
  | error fault => rw [parse_of_error acquired]
  | ok result =>
    rw [parse_of_ok acquired, size_release_of_ne apart, size_of_acquire_of_ne acquired apart]

/-! ## Parsers in their places -/

/-- Every parser waits under the language it was made for. -/
def Sorted (registry : Registry) (pool : Pool) : Prop :=
  ∀ language, ∀ parser ∈ pool.idle language, create registry language = .ok parser

theorem sorted_empty : empty.Sorted registry := by
  intro language parser waiting
  contradiction

theorem Sorted.set (sorted : pool.Sorted registry) {parsers : List Parser}
    (made : ∀ parser ∈ parsers, create registry language = .ok parser) :
    (pool.set language parsers).Sorted registry := by
  intro other parser waiting
  by_cases same : other = language
  · subst same
    rw [idle_set] at waiting
    exact made parser waiting
  · rw [idle_set_of_ne same] at waiting
    exact sorted other parser waiting

theorem Sorted.release (sorted : pool.Sorted registry) {parser : Parser}
    (made : create registry language = .ok parser) :
    (pool.release language parser).Sorted registry := by
  apply sorted.set
  rw [List.forall_mem_cons]
  exact ⟨made, sorted language⟩

theorem Sorted.acquire (sorted : pool.Sorted registry) {parser : Parser} {taken : Pool}
    (acquired : pool.acquire registry language = .ok (parser, taken)) :
    create registry language = .ok parser ∧ taken.Sorted registry := by
  have way := acquires registry language pool
  rw [acquired] at way
  cases way with
  | idle _ rest waiting =>
    have made := sorted language
    rw [waiting, List.forall_mem_cons] at made
    exact ⟨made.1, sorted.set made.2⟩
  | made _ nobody created => exact ⟨created, sorted⟩

theorem Sorted.parse (sorted : pool.Sorted registry) (text : String) :
    (pool.parse registry language text).2.Sorted registry := by
  cases acquired : pool.acquire registry language with
  | error fault =>
    rw [parse_of_error acquired]
    exact sorted
  | ok result =>
    rcases sorted.acquire acquired with ⟨made, taken⟩
    rw [parse_of_ok acquired]
    exact taken.release made

/-- Asking for a parser fails for want of the language and for no other reason. -/
theorem Sorted.acquire_eq_error_iff (sorted : pool.Sorted registry) {fault : Fault} :
    pool.acquire registry language = .error fault ↔
      registry.contains language = false ∧ fault = .languageNotFound language := by
  rw [← create_eq_error_iff]
  have way := acquires registry language pool
  generalize pool.acquire registry language = answer at way ⊢
  cases way with
  | idle parser rest waiting =>
    have made := sorted language parser (waiting ▸ List.mem_cons_self)
    simp [made]
  | made parser nobody created => simp [created]
  | refused _ nobody failed => simp [failed]

/-- Parsing fails for want of the language exactly if the language is not there. -/
theorem Sorted.parse_eq_languageNotFound_iff (sorted : pool.Sorted registry)
    {text name : String} :
    (pool.parse registry language text).1 = .error (.languageNotFound name) ↔
      registry.contains language = false ∧ name = language := by
  rw [← Fault.languageNotFound.injEq, ← sorted.acquire_eq_error_iff]
  cases acquired : pool.acquire registry language with
  | error fault => simp [parse_of_error acquired]
  | ok result => simp [parse_of_ok acquired, treeOf_ne_languageNotFound]

/-- Parsing leaves the parser it used behind. -/
theorem size_parse_of_contains (registered : registry.contains language = true) (text : String) :
    (pool.parse registry language text).2.size language = max 1 (pool.size language) := by
  rw [size_parse, size, makes]
  cases created : create registry language with
  | error fault =>
    rw [(create_eq_error_iff.mp created).1] at registered
    contradiction
  | ok parser =>
    cases pool.idle language with
    | nil => rfl
    | cons first rest => simp

/-- What a pool does for a language. -/
structure Serves (registry : Registry) (language : String) (pool : Pool) : Prop where
  /-- The parsers that wait for the language were made for it, and so are those handed out. -/
  idle : ∀ parser ∈ pool.idle language,
    parser.language = language ∧ registry.get? language = some parser.grammar
  acquired : ∀ parser taken, pool.acquire registry language = .ok (parser, taken) →
    parser.language = language ∧ registry.get? language = some parser.grammar
  acquire_eq_error_iff : ∀ fault, pool.acquire registry language = .error fault ↔
    registry.contains language = false ∧ fault = .languageNotFound language
  parse_eq_languageNotFound_iff : ∀ text name,
    (pool.parse registry language text).1 = .error (.languageNotFound name) ↔
      registry.contains language = false ∧ name = language
  parse_unregistered : registry.contains language = false → ∀ text,
    (pool.parse registry language text).2 = pool
  /-- The parser is there afterwards, whether or not there was a tree. -/
  size_parse : registry.contains language = true → ∀ text,
    (pool.parse registry language text).2.size language = max 1 (pool.size language)
  size_parse_of_ne : ∀ other ≠ language, ∀ text,
    (pool.parse registry language text).2.size other = pool.size other

theorem Sorted.serves (sorted : pool.Sorted registry) (language : String) :
    pool.Serves registry language where
  idle parser waiting := create_eq_ok_iff.mp (sorted language parser waiting)
  acquired _ _ answer := create_eq_ok_iff.mp (sorted.acquire answer).1
  acquire_eq_error_iff _ := sorted.acquire_eq_error_iff
  parse_eq_languageNotFound_iff _ _ := sorted.parse_eq_languageNotFound_iff
  parse_unregistered missing text := by
    rw [parse_of_error (sorted.acquire_eq_error_iff.mpr ⟨missing, rfl⟩)]
  size_parse := size_parse_of_contains
  size_parse_of_ne _ := size_parse_of_ne

end Pool

/-! ## Pools in use -/

/-- A pool with the parsers that are out, each with the identifier it was taken under. -/
structure Lending where
  pool : Pool
  out : List (String × Parser)

/-- What can be done with a pool. -/
inductive Use where
  | acquire (language : String)
  /-- Return one of the parsers that are out. -/
  | release (place : Nat)
  | parse (language text : String)
  | size (language : String)
  | clear
deriving DecidableEq

namespace Lending

/-- Nothing is waiting and nothing is out. -/
def start : Lending := ⟨.empty, []⟩

/-- Number of parsers that are out for a language. -/
def lent (lending : Lending) (language : String) : Nat :=
  lending.out.countP fun entry => entry.1 = language

/-- Use a pool once. Nothing happens where no parser can be had or none is out at the given
place. -/
def perform (registry : Registry) (lending : Lending) : Use → Lending
  | .acquire language =>
    match lending.pool.acquire registry language with
    | .error _ => lending
    | .ok (parser, taken) => ⟨taken, (language, parser) :: lending.out⟩
  | .release place =>
    match lending.out[place]? with
    | none => lending
    | some (language, parser) =>
      ⟨lending.pool.release language parser, lending.out.eraseIdx place⟩
  | .parse language text =>
    { lending with pool := (lending.pool.parse registry language text).2 }
  | .size _ => lending
  | .clear => { lending with pool := lending.pool.clear }

/-- Use a pool any number of times. -/
def run (registry : Registry) (lending : Lending) (uses : List Use) : Lending :=
  uses.foldl (perform registry) lending

/-- Number of parsers that one use makes for a language. -/
def makes (registry : Registry) (language : String) (lending : Lending) : Use → Nat
  | .acquire asked => if asked = language then lending.pool.makes registry asked else 0
  | .parse asked _ => if asked = language then lending.pool.makes registry asked else 0
  | .release _ => 0
  | .size _ => 0
  | .clear => 0

/-- Number of parsers that a run makes for a language. -/
def made (registry : Registry) (language : String) (lending : Lending) : List Use → Nat
  | [] => 0
  | use :: rest =>
    lending.makes registry language use +
      (lending.perform registry use).made registry language rest

variable {registry : Registry} {language : String} {lending : Lending}

theorem run_cons (use : Use) (rest : List Use) :
    lending.run registry (use :: rest) = (lending.perform registry use).run registry rest :=
  rfl

theorem run_append (before after : List Use) :
    lending.run registry (before ++ after) = (lending.run registry before).run registry after :=
  List.foldl_append

/-! ## The balance -/

/-- Number of parsers there are for a language, waiting or out. -/
def stock (lending : Lending) (language : String) : Nat :=
  lending.pool.size language + lending.lent language

theorem lent_cons (lending : Lending) (pool : Pool) (asked : String) (parser : Parser) :
    lent ⟨pool, (asked, parser) :: lending.out⟩ language =
      lending.lent language + if asked = language then 1 else 0 := by
  simp [lent, List.countP_cons]

/-- A parser that is returned was one of those that are out for its language. -/
theorem lent_eraseIdx {place : Nat} {asked : String} {parser : Parser}
    (found : lending.out[place]? = some (asked, parser)) (pool : Pool) :
    lending.lent language =
      lent ⟨pool, lending.out.eraseIdx place⟩ language + if asked = language then 1 else 0 := by
  rcases List.getElem?_eq_some_iff.mp found with ⟨inside, here⟩
  have returned := List.getElem_cons_eraseIdx_perm inside
  rw [here] at returned
  rw [lent, ← returned.countP_eq]
  exact lent_cons ⟨pool, lending.out.eraseIdx place⟩ pool asked parser

/-- Every use but clearing adds to the stock of a language what it makes for it. -/
theorem stock_perform {use : Use} (keeps : use ≠ .clear) :
    (lending.perform registry use).stock language =
      lending.stock language + lending.makes registry language use := by
  cases use with
  | acquire asked =>
    rw [perform, makes]
    cases acquired : lending.pool.acquire registry asked with
    | error fault => simp [Pool.makes_of_acquire_error acquired]
    | ok result =>
      rcases result with ⟨parser, taken⟩
      simp only [stock, lent_cons]
      split
      case isTrue same =>
        subst same
        have sizes := Pool.size_of_acquire acquired
        omega
      case isFalse apart =>
        rw [Pool.size_of_acquire_of_ne acquired (Ne.symm apart)]
        rfl
  | release place =>
    rw [perform, makes]
    cases found : lending.out[place]? with
    | none => rfl
    | some entry =>
      rcases entry with ⟨asked, parser⟩
      simp only [stock, lent_eraseIdx found (lending.pool.release asked parser)]
      split
      case isTrue same =>
        subst same
        rw [Pool.size_release]
        omega
      case isFalse apart =>
        rw [Pool.size_release_of_ne (Ne.symm apart)]
        rfl
  | parse asked text =>
    rw [perform, makes]
    simp only [stock, lent]
    split
    case isTrue same =>
      subst same
      rw [Pool.size_parse]
      omega
    case isFalse apart => rw [Pool.size_parse_of_ne (Ne.symm apart), Nat.add_zero]
  | size asked => rfl
  | clear => contradiction

theorem stock_run {uses : List Use} (keeps : .clear ∉ uses) :
    (lending.run registry uses).stock language =
      lending.stock language + lending.made registry language uses := by
  induction uses generalizing lending with
  | nil => rfl
  | cons use rest runRest =>
    rw [List.mem_cons, not_or] at keeps
    rw [run_cons, runRest keeps.2, stock_perform (Ne.symm keeps.1), made, Nat.add_assoc]

/-! ## Parsers that come back -/

/-- Every parser waits, or is out, under the language it was made for. -/
structure Kept (registry : Registry) (lending : Lending) : Prop where
  sorted : lending.pool.Sorted registry
  out : ∀ entry ∈ lending.out, Pool.create registry entry.1 = .ok entry.2

theorem kept_start : start.Kept registry where
  sorted := Pool.sorted_empty
  out := by simp [start]

theorem Kept.perform (kept : lending.Kept registry) (use : Use) :
    (lending.perform registry use).Kept registry := by
  cases use with
  | acquire asked =>
    rw [Lending.perform]
    cases acquired : lending.pool.acquire registry asked with
    | error fault => exact kept
    | ok result =>
      rcases kept.sorted.acquire acquired with ⟨made, taken⟩
      exact ⟨taken, List.forall_mem_cons.mpr ⟨made, kept.out⟩⟩
  | release place =>
    rw [Lending.perform]
    cases found : lending.out[place]? with
    | none => exact kept
    | some entry =>
      have made := kept.out entry (List.mem_of_getElem? found)
      exact ⟨kept.sorted.release made, fun other member =>
        kept.out other (List.mem_of_mem_eraseIdx member)⟩
  | parse asked text => exact ⟨kept.sorted.parse text, kept.out⟩
  | size asked => exact kept
  | clear => exact ⟨Pool.sorted_empty, kept.out⟩

theorem Kept.run (kept : lending.Kept registry) (uses : List Use) :
    (lending.run registry uses).Kept registry := by
  induction uses generalizing lending with
  | nil => exact kept
  | cons use rest runRest => exact runRest (kept.perform use)

/-- After a use that clears the pool nothing waits. -/
theorem size_run_of_getLast? {before : List Use} (cleared : before.getLast? = some .clear) :
    (lending.run registry before).pool.size language = 0 := by
  rcases List.getLast?_eq_some_iff.mp cleared with ⟨earlier, rfl⟩
  rw [run_append]
  rfl

/-- Whatever is done with a pool, it serves the languages that are registered and no
others, and refusing one changes nothing. For every language the parsers that wait and
those that are out are together the ones made since the pool was last cleared, or
since the beginning, and the ones that were out at that time. -/
theorem run_balances (registry : Registry) (uses : List Use) (language : String) :
    let lending := start.run registry uses
    lending.pool.Serves registry language ∧
      (registry.contains language = false →
        lending.perform registry (.acquire language) = lending) ∧
      ∀ before after, uses = before ++ after → before = [] ∨ before.getLast? = some .clear →
        .clear ∉ after →
        lending.pool.size language + lending.lent language =
          (start.run registry before).made registry language after +
            (start.run registry before).lent language := by
  intro lending
  have sorted : lending.pool.Sorted registry := (kept_start.run uses).sorted
  constructor
  · exact sorted.serves language
  constructor
  · intro missing
    rw [perform, sorted.acquire_eq_error_iff.mpr ⟨missing, rfl⟩]
  · rintro before after rfl opens keeps
    have nobody : (start.run registry before).pool.size language = 0 := by
      rcases opens with rfl | cleared
      · rfl
      · exact size_run_of_getLast? cleared
    calc
      lending.stock language = (start.run registry before).stock language +
          (start.run registry before).made registry language after := by
        rw [← stock_run keeps, ← run_append]
      _ = (start.run registry before).made registry language after +
          (start.run registry before).lent language := by
        rw [stock, nobody, Nat.zero_add, Nat.add_comm]

/-- Two parsers are out when the pool is cleared. One comes back, serves a text that has no
tree and is taken again, then a third one is made. -/
theorem run_balances_across_clear :
    let registry := Registry.builtin ⟨fun _ => none⟩
    let before : List Use := [.acquire "rust", .acquire "rust", .clear]
    let after : List Use :=
      [.release 1, .parse "rust" "fn", .acquire "rust", .acquire "go", .acquire "rust"]
    let cleared := start.run registry before
    let lending := start.run registry (before ++ after)
    before.getLast? = some .clear ∧ .clear ∉ after ∧
      cleared.made registry "rust" after = 1 ∧ cleared.lent "rust" = 2 ∧
      lending.pool.size "rust" + lending.lent "rust" = 1 + 2 ∧
      registry.contains "rust" = true ∧
      (lending.pool.parse registry "rust" "fn").2.size "rust" = max 1 (lending.pool.size "rust") ∧
      registry.contains "go" = false ∧
      lending.pool.acquire registry "go" = .error (.languageNotFound "go") ∧
      lending.perform registry (.acquire "go") = lending := by
  intro registry before after cleared lending
  have isCleared : before.getLast? = some .clear := rfl
  have keeps : .clear ∉ after := by decide
  have isThere : registry.contains "rust" = true := by decide
  have isMissing : registry.contains "go" = false := by decide
  rcases run_balances registry (before ++ after) "rust" with ⟨serves, -, balances⟩
  rcases run_balances registry (before ++ after) "go" with ⟨refuses, unchanged, -⟩
  exact ⟨isCleared, keeps, by decide, by decide, balances before after rfl (.inr isCleared) keeps,
    isThere, serves.size_parse isThere "fn", isMissing,
    (refuses.acquire_eq_error_iff _).mpr ⟨isMissing, rfl⟩, unchanged isMissing⟩

end Lending

end TreeLens
