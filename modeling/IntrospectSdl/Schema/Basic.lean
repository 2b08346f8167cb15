import IntrospectSdl.Schema.TypeTable

/-! # Schemas

A schema has types, directives, a description and up to three root types, one for each kind of
operation. Its references need not resolve: what that takes is checked where it matters. -/

namespace IntrospectSdl

/-- The kinds of operations. -/
inductive Operation where
  | query
  | mutation
  | subscription
deriving DecidableEq, Repr

namespace Operation

/-- The keyword of the operation. -/
def keyword : Operation → String
  | .query => "query"
  | .mutation => "mutation"
  | .subscription => "subscription"

/-- The name that the root type of the operation has by convention. -/
def conventionalRoot : Operation → String
  | .query => "Query"
  | .mutation => "Mutation"
  | .subscription => "Subscription"

/-- All operations, in the order in which they are listed. -/
def all : List Operation := [.query, .mutation, .subscription]

end Operation

/-- A type system. -/
structure Schema where
  description : Option String
  query : Option String
  mutation : Option String
  subscription : Option String
  types : TypeTable
  directives : List Directive

namespace Schema

/-- The schema without anything. -/
def empty : Schema := ⟨none, none, none, none, .empty, []⟩

/-- The name of the root type of an operation. -/
def root (s : Schema) : Operation → Option String
  | .query => s.query
  | .mutation => s.mutation
  | .subscription => s.subscription

end Schema

end IntrospectSdl
