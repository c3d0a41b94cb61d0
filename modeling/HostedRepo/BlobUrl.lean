import HostedRepo.Text.Pattern

/-!
# Blob addresses

The address of a file as the web pages show it: a fixed beginning, then owner, repository, the
word `blob`, a reference and a path, which end at the last question mark. These five parts are
searched for in what follows the beginning; the path ends at the first line break.
-/

namespace HostedRepo

/-- What a blob address names. The reference is required there and not kept. -/
structure BlobUrl where
  path : String
  owner : String
  repo : String
  deriving DecidableEq, Repr

namespace BlobUrl

/-- What every blob address starts with. -/
def start : String := "https://github.com/"

/-- The form of what follows: owner, repository, reference and path are its groups. -/
def form : Text.Pattern :=
  [.group (.except '/'), .plain "/", .group (.except '/'), .plain "/blob/",
    .group (.except '/'), .plain "/", .group .inLine]

/-- The form of what follows, as error messages show it. -/
def pattern : String := form.text

example : pattern = "([^/]+)/([^/]+)/blob/([^/]+)/(.+)" := by decide

inductive Fault where
  | wrongStart
  | wrongForm
  deriving DecidableEq, Repr

/-- Reads a blob address. -/
def parse (url : String) : Except Fault BlobUrl :=
  match Text.stripStart start.toList url.toList with
  | none => .error .wrongStart
  | some rest =>
    match Text.Pattern.search? form (Text.beforeLast '?' rest) with
    | some [owner, repo, _, path] =>
      .ok ⟨String.ofList path, String.ofList owner, String.ofList repo⟩
    | _ => .error .wrongForm

end BlobUrl
end HostedRepo
