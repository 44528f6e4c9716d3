import TreeLens.Language.Pool

/-!
# What a pool has to offer

Taking a parser from a pool goes one of three ways: one is waiting, one can be made, or
neither. Whatever is taken from a pool and returned to it later, all it ever holds for a
language are parsers that waited there at first or can be made for it; these are the
parsers the pool offers, and what it can make of a text is what one of them answers, or
the fault of not having one.
-/

namespace TreeLens

namespace Pool

variable {registry : Registry} {language : String}

/-- The ways in which a parser can be asked for. -/
inductive Acquires (registry : Registry) (language : String) (pool : Pool) :
    Except Fault (Parser × Pool) → Prop where
  | idle (parser : Parser) (rest : List Parser) (waiting : pool.idle language = parser :: rest) :
    Acquires registry language pool (.ok (parser, pool.set language rest))
  | made (parser : Parser) (nobody : pool.idle language = [])
    (created : create registry language = .ok parser) :
    Acquires registry language pool (.ok (parser, pool))
  | refused (fault : Fault) (nobody : pool.idle language = [])
    (failed : create registry language = .error fault) :
    Acquires registry language pool (.error fault)

/-- Asking for a parser goes one of the listed ways. -/
theorem acquires (registry : Registry) (language : String) (pool : Pool) :
    Acquires registry language pool (pool.acquire registry language) := by
  rw [acquire]
  cases waiting : pool.idle language with
  | cons parser rest => exact .idle parser rest waiting
  | nil =>
    cases created : create registry language with
    | ok parser => exact .made parser waiting created
    | error fault => exact .refused fault waiting created

theorem idle_set (pool : Pool) (parsers : List Parser) :
    (pool.set language parsers).idle language = parsers :=
  if_pos rfl

/-- A parser that waits under an identifier or can be made for it. -/
def Offers (registry : Registry) (language : String) (pool : Pool) (parser : Parser) : Prop :=
  parser ∈ pool.idle language ∨ create registry language = .ok parser

/-- All parsers that wait under an identifier are offered by another pool. -/
def StockedBy (registry : Registry) (language : String) (pool stock : Pool) : Prop :=
  ∀ parser ∈ pool.idle language, stock.Offers registry language parser

theorem stockedBy_refl (pool : Pool) : pool.StockedBy registry language pool :=
  fun _ member => .inl member

/-- A parser that waits is offered, and so are those left behind. -/
theorem StockedBy.take {stock pool : Pool} {parser : Parser} {rest : List Parser}
    (stocked : pool.StockedBy registry language stock)
    (waiting : pool.idle language = parser :: rest) :
    stock.Offers registry language parser ∧
      (pool.set language rest).StockedBy registry language stock := by
  rw [StockedBy, waiting, List.forall_mem_cons] at stocked
  rw [StockedBy, idle_set]
  exact stocked

theorem StockedBy.release {stock pool : Pool} {parser : Parser}
    (stocked : pool.StockedBy registry language stock)
    (offered : stock.Offers registry language parser) :
    (pool.release language parser).StockedBy registry language stock := by
  rw [StockedBy, Pool.release, idle_set]
  exact List.forall_mem_cons.mpr ⟨offered, stocked⟩

/-- What a pool can make of a text: the answer of one of its parsers, or the fault of not
having one. -/
inductive Yields (registry : Registry) (language : String) (pool : Pool) (text : String) :
    Except Fault Tree → Prop where
  | refused (fault : Fault) (failed : create registry language = .error fault) :
    Yields registry language pool text (.error fault)
  | parsed (parser : Parser) (offered : pool.Offers registry language parser) :
    Yields registry language pool text (treeOf language text (parser.grammar.parse? text))

end Pool

end TreeLens
