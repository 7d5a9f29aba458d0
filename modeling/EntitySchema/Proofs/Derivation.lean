import EntitySchema.Schema.Reader

/-!
The grammar of the schema language as relations between tokens and what they stand for. A relation
holds of the tokens of a part and of nothing after them. The relations know nothing of the order in
which tokens are looked at; that reading follows them is shown in `Recognition`.
-/

namespace EntitySchema.Derivation

open Grammar (Modifier isIdentifier isReserved)

/-! ## Types -/

/-- The words that stand for a type whatever is announced: scalars, and `array`. -/
def typeWords : List String := "array" :: Scalar.all.map Scalar.keyword

/-- The tokens of a type. A struct or enum is given by a name that is declared or announced in the
model and is none of `words`. -/
inductive IsType (words : List String) (model : Model) : List Token → TypeExpr → Prop
  | array {keyword left right : Token} {inner : List Token} {element : TypeExpr} :
      keyword.is "array" → left.is "<" → IsType words model inner element → right.is ">" →
      IsType words model (keyword :: left :: (inner ++ [right])) (.array element)
  | scalar {t : Token} {s : Scalar} :
      t.quoted = false → Scalar.ofKeyword? t.text = some s → IsType words model [t] (.scalar s)
  | named {t : Token} :
      isIdentifier t → t.text ∉ words → model.isTypeName t.text →
      IsType words model [t] (.named t.text)

/-! ## Members -/

/-- The modifiers that are a single word. -/
def flagWords : List (String × Modifier) :=
  [("required", .required true), ("optional", .required false), ("unique", .unique),
    ("auto_increment", .autoIncrement), ("primary_key", .primaryKey)]

/-- The modifiers that bound the number of items. -/
def boundWords : List (String × (Nat → Modifier)) :=
  [("min_items", .minItems), ("max_items", .maxItems)]

/-- The texts of tokens, one after the other. -/
def joined : List Token → String
  | [] => ""
  | t :: rest => t.text ++ joined rest

/-- No word is empty. Tokens of a source are so; only quotes can enclose nothing. -/
def WordsNonempty (ts : List Token) : Prop :=
  ∀ t ∈ ts, t.quoted = false → t.text ≠ ""

/-- A token that may stand in a default value without quotes. -/
def IsDefaultWord (t : Token) : Prop :=
  t.quoted = false ∧ t.is ")" = false ∧ t.is ";" = false

/-- The tokens of a modifier, for a member of the given type. -/
inductive IsModifier (type : TypeExpr) : List Token → Modifier → Prop
  | flag {keyword : Token} {word : String} {m : Modifier} :
      keyword.is word → (word, m) ∈ flagWords → IsModifier type [keyword] m
  | bound {keyword left number right : Token} {word : String} {make : Nat → Modifier} {n : Nat} :
      keyword.is word → (word, make) ∈ boundWords → type.isArray → left.is "(" →
      number.quoted = false → Number.readUnsigned number.text = some n → right.is ")" →
      IsModifier type [keyword, left, number, right] (make n)
  | reference {keyword left struct dot field right : Token} :
      keyword.is "reference" → left.is "(" → isIdentifier struct → dot.is "." →
      isIdentifier field → right.is ")" →
      IsModifier type [keyword, left, struct, dot, field, right]
        (.reference ⟨struct.text, field.text⟩)
  | ownReference {keyword : Token} {name : String} :
      keyword.is "reference" → type = .named name →
      IsModifier type [keyword] (.reference ⟨name, keyName⟩)
  | description {keyword left text right : Token} :
      keyword.is "description" → left.is "(" → right.is ")" →
      IsModifier type [keyword, left, text, right] (.description text.text)
  | quotedDefault {keyword left text right : Token} :
      keyword.is "default" → left.is "(" → text.quoted = true → right.is ")" →
      IsModifier type [keyword, left, text, right] (.defaultValue text.text)
  | wordDefault {keyword left right : Token} {texts : List Token} :
      keyword.is "default" → left.is "(" → texts ≠ [] → (∀ t ∈ texts, IsDefaultWord t) →
      right.is ")" →
      IsModifier type (keyword :: left :: (texts ++ [right])) (.defaultValue (joined texts))

/-- Modifiers, each after a colon. -/
inductive AreModifiers (type : TypeExpr) : List Token → List Modifier → Prop
  | nil : AreModifiers type [] []
  | cons {colon : Token} {used rest : List Token} {m : Modifier} {ms : List Modifier} :
      colon.is ":" → IsModifier type used m → AreModifiers type rest ms →
      AreModifiers type (colon :: (used ++ rest)) (m :: ms)

/-- A member before its modifiers. -/
def bareMember (type : TypeExpr) (name : Token) : Member :=
  { owner := .schema, type, name := name.text, position := name.position }

/-- The tokens of a member. -/
inductive IsMember (words : List String) (model : Model) : List Token → Member → Prop
  | intro {typeTokens modifierTokens : List Token} {type : TypeExpr} {colon name semicolon : Token}
      {ms : List Modifier} :
      IsType words model typeTokens type → colon.is ":" → isIdentifier name →
      name.text ≠ keyName → AreModifiers type modifierTokens ms → semicolon.is ";" →
      IsMember words model (typeTokens ++ colon :: name :: (modifierTokens ++ [semicolon]))
        (ms.foldl Modifier.apply (bareMember type name))

inductive AreMembers (words : List String) (model : Model) : List Token → List Member → Prop
  | nil : AreMembers words model [] []
  | cons {used rest : List Token} {m : Member} {ms : List Member} :
      IsMember words model used m → AreMembers words model rest ms →
      AreMembers words model (used ++ rest) (m :: ms)

/-! ## Values of enums -/

/-- The tokens of a value. Without a number of its own it is one more than the value before it, if
that fits 64 bits, and zero where there is none before it. -/
inductive IsValue : Option Int → List Token → EnumValue → Prop
  | explicit {last : Option Int} {name equals number : Token} {i : Int} :
      isIdentifier name → name.text ≠ unknownName → equals.is "=" → number.quoted = false →
      Number.readSigned number.text = some i →
      IsValue last [name, equals, number] ⟨name.text, i⟩
  | first {name : Token} :
      isIdentifier name → name.text ≠ unknownName → IsValue none [name] ⟨name.text, 0⟩
  | next {name : Token} {previous : Int} :
      isIdentifier name → name.text ≠ unknownName → previous < Number.maxSigned →
      IsValue (some previous) [name] ⟨name.text, previous + 1⟩

/-- Values separated by commas, of which one may stand at the end. -/
inductive AreValues : Option Int → List Token → List EnumValue → Prop
  | nil {last : Option Int} : AreValues last [] []
  | single {last : Option Int} {used : List Token} {v : EnumValue} :
      IsValue last used v → AreValues last used [v]
  | cons {last : Option Int} {used rest : List Token} {v : EnumValue} {vs : List EnumValue}
      {comma : Token} :
      IsValue last used v → comma.is "," → AreValues (some v.value) rest vs →
      AreValues last (used ++ comma :: rest) (v :: vs)

/-! ## Declarations -/

/-- Tokens in which every opening brace has its closing one. -/
inductive Balanced : List Token → Prop
  | nil : Balanced []
  | word {t : Token} {rest : List Token} :
      t.is "\x7b" = false → t.is "\x7d" = false → Balanced rest → Balanced (t :: rest)
  | block {left right : Token} {inner rest : List Token} :
      left.is "\x7b" → Balanced inner → right.is "\x7d" → Balanced rest →
      Balanced (left :: (inner ++ right :: rest))

/-- Nothing, or one semicolon. -/
def IsOptionalSemicolon (ts : List Token) : Prop :=
  ts = [] ∨ ∃ t : Token, ts = [t] ∧ t.is ";"

/-- A name that a struct or enum can get. -/
structure IsNewName (model : Model) (name : Token) : Prop where
  identifier : isIdentifier name
  notReserved : isReserved name.text = false
  notDeclared : model.isDeclared name.text = false

/-- The tokens of a struct. -/
inductive IsStruct (words : List String) (model : Model) : List Token → Struct → Prop
  | intro {keyword name left right : Token} {body finish : List Token} {ms : List Member} :
      keyword.is "struct" → IsNewName model name → left.is "\x7b" →
      AreMembers words model body ms → (ms.map Member.name).Nodup → right.is "\x7d" →
      IsOptionalSemicolon finish →
      IsStruct words model (keyword :: name :: left :: (body ++ right :: finish))
        { name := name.text, position := name.position, members := ms ++ [Member.key] }

/-- The tokens of an enum. -/
inductive IsEnum (model : Model) : List Token → Enumeration → Prop
  | intro {keyword name left right : Token} {body finish : List Token} {vs : List EnumValue} :
      keyword.is "enum" → IsNewName model name → left.is "\x7b" →
      AreValues none body vs → (vs.map EnumValue.name).Nodup → right.is "\x7d" →
      IsOptionalSemicolon finish →
      IsEnum model (keyword :: name :: left :: (body ++ right :: finish))
        { name := name.text, position := name.position, values := vs ++ [⟨unknownName, -1⟩] }

/-- The tokens of a config block. -/
inductive IsConfig : List Token → Prop
  | intro {keyword left right : Token} {body : List Token} :
      keyword.is "config" → left.is "\x7b" → Balanced body → right.is "\x7d" →
      IsConfig (keyword :: left :: (body ++ [right]))

/-- Declarations without inclusions. They lead from the model before them to the one after them. -/
inductive IsSchema (words : List String) : Model → List Token → Model → Prop
  | nil {model : Model} : IsSchema words model [] model
  | struct {model final : Model} {used rest : List Token} {s : Struct} :
      IsStruct words model used s → IsSchema words (model.declareStruct s) rest final →
      IsSchema words model (used ++ rest) final
  | enumeration {model final : Model} {used rest : List Token} {e : Enumeration} :
      IsEnum model used e → IsSchema words (model.declareEnum e) rest final →
      IsSchema words model (used ++ rest) final
  | config {model final : Model} {used rest : List Token} :
      IsConfig used → IsSchema words model rest final → IsSchema words model (used ++ rest) final

/-- The word `include` stands where a declaration could start. -/
def HasInclude (words : List String) (model : Model) (ts : List Token) : Prop :=
  ∃ before t after final, ts = before ++ t :: after ∧ t.is "include" ∧
    IsSchema words model before final

end EntitySchema.Derivation
