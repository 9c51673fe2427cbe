/-!
# Placeholders in a text

`${NAME}` stands for the value that the environment gives to `NAME`, nothing if it
gives none or one that is no text. Values are put in as they are and not looked at
again; an unclosed placeholder stays as written.
-/

namespace Resumable

namespace Environment

/-- What a variable holds. It is bytes, kept as the text that they begin with and the
rest, which begins no further character. -/
structure Content where
  text : List Char
  rest : List UInt8 := []
  rest_unreadable : ∀ c : Char, ¬ String.utf8EncodeChar c <+: rest := by simp

instance : Coe String Content := ⟨fun s => { text := s.toList }⟩

/-- The text that a variable holds, if it is one. -/
def Content.read? (c : Content) : Option (List Char) :=
  if c.rest.isEmpty then some c.text else none

end Environment

abbrev Environment := List (String × Environment.Content)

namespace Environment

/-- What a variable holds. An entry is `name=value`, so a name that is looked up ends
at the sign that follows it, wherever the entry's own name ends. -/
def get? (env : Environment) (name : List Char) : Option Content :=
  env.findSome? fun entry =>
    let line := entry.1.toList ++ '=' :: entry.2.text
    if (name ++ ['=']).isPrefixOf line then
      some { entry.2 with text := line.drop (name.length + 1) }
    else none

def value (env : Environment) (name : List Char) : List Char :=
  if name.isEmpty then [] else ((env.get? name).bind Content.read?).getD []

end Environment

/-- Split behind the first closing brace, which is left out. -/
def splitAtBrace? : List Char → Option (List Char × List Char)
  | [] => none
  | c :: rest =>
      if c = '\x7d' then some ([], rest)
      else (splitAtBrace? rest).map fun (name, after) => (c :: name, after)

theorem splitAtBrace?_length {text name after : List Char}
    (h : splitAtBrace? text = some (name, after)) : after.length < text.length := by
  induction text generalizing name after with
  | nil => simp [splitAtBrace?] at h
  | cons c rest ih =>
      rw [splitAtBrace?] at h
      split at h
      · simp only [Option.some.injEq, Prod.mk.injEq] at h
        simp [h.2]
      · obtain ⟨⟨n, a⟩, hn, he⟩ := Option.map_eq_some_iff.mp h
        simp only [Prod.mk.injEq] at he
        have := ih hn
        rw [← he.2, List.length_cons]
        omega

namespace Environment

/-- Put values in the place of placeholders. -/
def expandChars (env : Environment) : List Char → List Char
  | '$' :: '\x7b' :: rest =>
      match _h : splitAtBrace? rest with
      | none => '$' :: '\x7b' :: rest
      | some (name, after) => env.value name ++ expandChars env after
  | c :: rest => c :: expandChars env rest
  | [] => []
termination_by text => text.length
decreasing_by
  · have := splitAtBrace?_length _h
    simp only [List.length_cons]
    omega
  · simp

def expand (env : Environment) (text : String) : String :=
  String.ofList (env.expandChars text.toList)

end Environment

end Resumable
