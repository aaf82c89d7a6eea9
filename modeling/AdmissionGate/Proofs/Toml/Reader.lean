import AdmissionGate.Proofs.Toml.Token
import AdmissionGate.Proofs.Toml.Value
import AdmissionGate.Toml.Reader

/-!
# Proofs/Toml/Reader — written tables read back

A table is written line by line: a quoted key, a sign of equality and a value, whose arrays and
tables are all inline.  Reading puts each value at the end of what has been read before.
-/

namespace AdmissionGate.Toml

/-! ## 1. The tokens of a value -/

mutual

def Value.tokens : Value → List Token
  | .string text => [.string false text]
  | .integer i => [.bare (Text.signedDecimal i).toList]
  | .float (some x) => [.bare (floatChars x)]
  | .boolean true => [.bare "true".toList]
  | .boolean false => [.bare "false".toList]
  -- Dates and floats out of range keep nothing that could be written.
  | .float none | .datetime => []
  | .array items => .openBracket :: ([.comma].intercalate (itemTokens items) ++ [.closeBracket])
  | .table members =>
    .openBrace :: ([.comma].intercalate (memberTokens members) ++ [.closeBrace])

def itemTokens : List Value → List (List Token)
  | [] => []
  | item :: rest => item.tokens :: itemTokens rest

def memberTokens : List (String × Value) → List (List Token)
  | [] => []
  | (key, value) :: rest => (.string false key :: .equals :: value.tokens) :: memberTokens rest

end

mutual

/-- Holds of values that can be written: they nest no deeper than there is room for, tables have no
key twice, and nothing in them is a date or out of range. -/
def Value.Plain : (room : Nat) → Value → Prop
  | _, .float x => x ≠ none
  | _, .datetime => False
  | 0, .array _ | 0, .table _ => False
  | room + 1, .array items => ItemsPlain room items
  | room + 1, .table members => (members.map Prod.fst).Nodup ∧ MembersPlain room members
  | _, _ => True

def ItemsPlain (room : Nat) : List Value → Prop
  | [] => True
  | item :: rest => item.Plain room ∧ ItemsPlain room rest

def MembersPlain (room : Nat) : List (String × Value) → Prop
  | [] => True
  | (_, value) :: rest => value.Plain room ∧ MembersPlain room rest

end

/-- The tokens of a table that is written line by line. -/
def lineTokens (members : List (String × Value)) : List Token :=
  members.flatMap fun m => .string false m.1 :: .equals :: (m.2.tokens ++ [.lineBreak])

def text (members : List (String × Value)) : String := String.ofList (charsOf (lineTokens members))

theorem lineTokens_cons (key : String) (value : Value) (rest : List (String × Value)) :
    lineTokens ((key, value) :: rest) =
      [.string false key] ++ .equals :: (value.tokens ++ .lineBreak :: lineTokens rest) := by
  unfold lineTokens
  rw [List.flatMap_cons, List.cons_append, List.cons_append, List.append_assoc]
  rfl

/-! ## 2. Readable tokens -/

namespace Scanner

theorem endsBare_of_isDigit {c : Char} (h : c.isDigit = true) : endsBare c = false := by
  have hnone : ∀ c ∈ [' ', '\t', '\n', '\r', '=', ',', '.', '[', ']', '\x7b', '\x7d', '#',
      '\x22', '\x27'], c.isDigit = false := by simp
  refine Bool.eq_false_iff.mpr fun hends => ?_
  rw [hnone c (of_decide_eq_true hends)] at h
  cases h

theorem endsBare_of_mem_signedDecimal {i : Int} {c : Char}
    (h : c ∈ (Text.signedDecimal i).toList) : endsBare c = false := by
  rw [toList_signedDecimal, List.mem_append] at h
  rcases h with h | h
  · have hsign : ∀ c ∈ Json.Numeral.signChars (i < 0), endsBare c = false := by
      cases decide (i < 0) <;> simp [Json.Numeral.signChars, endsBare]
    exact hsign c h
  · exact endsBare_of_isDigit (Text.isDigit_of_mem_decimalChars h)

theorem signedDecimal_ne_nil (i : Int) : (Text.signedDecimal i).toList ≠ [] := by
  rw [toList_signedDecimal]
  exact List.append_ne_nil_of_right_ne_nil _ (Text.decimalChars_ne_nil _)

theorem endsBare_of_mem_floatChars {x : Binary64} {c : Char} (h : c ∈ floatChars x) :
    endsBare c = false := by
  have hsign (negative : Bool) : ∀ c ∈ Json.Numeral.signChars negative, endsBare c = false := by
    cases negative <;> simp [Json.Numeral.signChars, endsBare]
  cases x with
  | nan =>
    have hnan : ∀ c ∈ "nan".toList, endsBare c = false := by simp [endsBare]
    exact hnan c h
  | infinite negative =>
    have hinf : ∀ c ∈ "inf".toList, endsBare c = false := by simp [endsBare]
    rcases List.mem_append.mp h with h | h
    · exact hsign negative c h
    · exact hinf c h
  | finite x =>
    rcases List.mem_append.mp h with h | h
    · exact hsign x.negative c h
    · rcases List.mem_append.mp h with h | h
      · exact endsBare_of_isDigit (Text.isDigit_of_mem_decimalChars h)
      · rcases List.mem_cons.mp h with rfl | h
        · rfl
        · exact endsBare_of_mem_signedDecimal h

theorem floatChars_ne_nil (x : Binary64) : floatChars x ≠ [] := by
  cases x with
  | nan => exact List.cons_ne_nil _ _
  | infinite negative => exact List.append_ne_nil_of_right_ne_nil _ (List.cons_ne_nil _ _)
  | finite x =>
    exact List.append_ne_nil_of_right_ne_nil _
      (List.append_ne_nil_of_right_ne_nil _ (List.cons_ne_nil _ _))

mutual

theorem readable_tokens (v : Value) {room : Nat} (h : v.Plain room) : Readable v.tokens := by
  match room, v with
  | _, .string text => exact readable_string text
  | _, .integer i =>
    exact readable_bare (signedDecimal_ne_nil i) fun _ => endsBare_of_mem_signedDecimal
  | _, .float (some x) =>
    exact readable_bare (floatChars_ne_nil x) fun _ => endsBare_of_mem_floatChars
  | _, .boolean true => exact readable_bare (List.cons_ne_nil _ _) (by simp [endsBare])
  | _, .boolean false => exact readable_bare (List.cons_ne_nil _ _) (by simp [endsBare])
  | room + 1, .array items =>
    have hitems := readable_intercalate (readable_itemTokens items h)
    exact readable_cons .openBracket (readable_append hitems .closeBracket readable_nil)
  | room + 1, .table members =>
    have hmembers := readable_intercalate (readable_memberTokens members h.2)
    exact readable_cons .openBrace (readable_append hmembers .closeBrace readable_nil)

theorem readable_itemTokens (items : List Value) {room : Nat} (h : ItemsPlain room items) :
    ∀ part ∈ itemTokens items, Readable part := by
  match items with
  | [] => exact List.forall_mem_nil _
  | item :: rest =>
    exact List.forall_mem_cons.mpr
      ⟨readable_tokens item h.1, readable_itemTokens rest h.2⟩

theorem readable_memberTokens (members : List (String × Value)) {room : Nat}
    (h : MembersPlain room members) : ∀ part ∈ memberTokens members, Readable part := by
  match members with
  | [] => exact List.forall_mem_nil _
  | (key, value) :: rest =>
    have hvalue := readable_append (readable_string key) .equals (readable_tokens value h.1)
    exact List.forall_mem_cons.mpr ⟨hvalue, readable_memberTokens rest h.2⟩

end

theorem readable_lineTokens (members : List (String × Value)) {room : Nat}
    (h : MembersPlain room members) : Readable (lineTokens members) := by
  match members with
  | [] => exact readable_nil
  | (key, value) :: rest =>
    rw [lineTokens_cons]
    have hrest := readable_append (readable_tokens value h.1) .lineBreak
      (readable_lineTokens rest h.2)
    exact readable_append (readable_string key) .equals hrest

end Scanner

theorem tokens?_text {members : List (String × Value)} {room : Nat}
    (h : MembersPlain room members) : tokens? (text members) = some (lineTokens members) := by
  refine tokens?_charsOf (Scanner.readable_lineTokens members h) ?_
  -- A byte order mark would be passed over, but what is written starts with a quotation mark.
  match members with
  | [] => exact nofun
  | (key, value) :: rest =>
    rw [lineTokens_cons]
    show some '\x22' ≠ _
    decide

/-! ## 3. Reading tokens -/

inductive EndsValue : Token → Prop
  | comma : EndsValue .comma
  | closeBracket : EndsValue .closeBracket
  | closeBrace : EndsValue .closeBrace
  | lineBreak : EndsValue .lineBreak

/-- The children of a table whose members are all values. -/
def childrenOf (members : List (String × Value)) : Children :=
  members.map fun m => (m.1, .value m.2)

theorem membersOf_childrenOf (members : List (String × Value)) :
    membersOf (childrenOf members) = members := by
  induction members with
  | nil => rfl
  | cons m rest ih =>
    show (m.1, m.2) :: membersOf (childrenOf rest) = _
    rw [ih]

theorem key_not_mem_of_nodup {done rest : List (String × Value)} {m : String × Value}
    (h : ((done ++ m :: rest).map Prod.fst).Nodup) : m.1 ∉ done.map Prod.fst := by
  rw [List.map_append, List.map_cons] at h
  exact fun hmem => (List.nodup_append'.mp h).2.2 hmem List.mem_cons_self

/-- A key that is new goes to the end of a table. -/
theorem define_childrenOf {members : List (String × Value)} {key : String}
    (h : key ∉ members.map Prod.fst) (value : Value) :
    define key value (childrenOf members) = some (childrenOf (members ++ [(key, value)])) := by
  induction members with
  | nil => rfl
  | cons m rest ih =>
    -- Every key on the way is another one, so the walk comes to the end.
    obtain ⟨hkey, hrest⟩ := not_or.mp (mt List.mem_cons.mpr h)
    show (if m.1 = key then _ else (define key value (childrenOf rest)).map _) = _
    rw [if_neg (Ne.symm hkey), ih hrest]
    rfl

namespace Reader

variable {r r' : Reader} {stack : List Frame} {t : Token} {ts rest : List Token}

def run (r : Reader) (ts : List Token) : Option Reader := ts.foldlM step r

theorem run_cons (h : r.step t = some r') : r.run (t :: ts) = r'.run ts := by
  unfold run
  rw [List.foldlM_cons, h]
  rfl

theorem run_eq_bind (r : Reader) (t : Token) (ts : List Token) :
    r.run (t :: ts) = (r.step t).bind (·.run ts) := List.foldlM_cons

/-- What a finished value comes to does not depend on what was due. -/
theorem ended_goto (stage : Stage) (v : Value) :
    (r.goto stage).ended stack v t = r.ended stack v t := by
  cases t <;> rfl

theorem run_ended (v : Value) :
    (r.goto (.ended stack v)).run (t :: rest) = (r.ended stack v t).bind (·.run rest) := by
  rw [run_eq_bind]
  show ((r.goto (.ended stack v)).ended stack v t).bind _ = _
  rw [ended_goto]

/-- A bare value is finished by what follows it. -/
theorem run_bare {lexeme : List Char} {v : Value} (h : bareValue? lexeme = some v)
    (ht : EndsValue t) :
    (r.goto (.value stack)).run (.bare lexeme :: t :: rest) =
      (r.ended stack v t).bind (·.run rest) := by
  rw [run_cons rfl, run_eq_bind]
  have hstep : (r.goto (.bare stack lexeme false)).step t = r.ended stack v t := by
    have hended : (r.goto (.bare stack lexeme false)).endBare stack lexeme t =
        r.ended stack v t := by
      unfold endBare
      rw [h]
      exact ended_goto _ v
    cases ht <;> exact hended
  show ((r.goto (.bare stack lexeme false)).step t).bind _ = _
  rw [hstep]

theorem value_openBracket (h : stack.length ≤ maxNesting) :
    (r.goto (.value stack)).step .openBracket = some (r.goto (.value (.array [] :: stack))) := by
  show (if maxNesting < stack.length then none else _) = _
  rw [if_neg (Nat.not_lt.mpr h)]
  rfl

theorem value_openBrace (h : stack.length ≤ maxNesting) :
    (r.goto (.value stack)).step .openBrace = some (r.goto (.inlineKey stack [] [])) := by
  show (if maxNesting < stack.length then none else _) = _
  rw [if_neg (Nat.not_lt.mpr h)]
  rfl

/-- The value of a key is finished by a comma, after which another key is due. -/
theorem ended_comma {members : List (String × Value)} {key : String}
    (h : key ∉ members.map Prod.fst) (v : Value) :
    r.ended (.table (childrenOf members) [] key :: stack) v .comma =
      some (r.goto (.inlineKey stack (childrenOf (members ++ [(key, v)])) [])) := by
  show (define key v (childrenOf members)).map _ = _
  rw [define_childrenOf h]
  rfl

theorem ended_closeBrace {members : List (String × Value)} {key : String}
    (h : key ∉ members.map Prod.fst) (v : Value) :
    r.ended (.table (childrenOf members) [] key :: stack) v .closeBrace =
      some (r.goto (.ended stack (.table (members ++ [(key, v)])))) := by
  show (define key v (childrenOf members)).map _ = _
  rw [define_childrenOf h]
  show some (r.goto (.ended stack (.table (membersOf (childrenOf _))))) = _
  rw [membersOf_childrenOf]

mutual

/-- The tokens of a value finish it at the token after them. -/
theorem run_tokens (v : Value) (r : Reader) (stack : List Frame) {t : Token} (rest : List Token)
    {room : Nat} (h : v.Plain room) (hroom : stack.length + room ≤ maxNesting + 1)
    (ht : EndsValue t) :
    (r.goto (.value stack)).run (v.tokens ++ t :: rest) =
      (r.ended stack v t).bind (·.run rest) := by
  match room, v with
  | _, .string text => exact (run_cons rfl).trans (run_ended _)
  | _, .integer i => exact run_bare (bareValue?_signedDecimal i) ht
  | _, .float (some x) => exact run_bare (bareValue?_floatChars x) ht
  | _, .boolean true => exact run_bare rfl ht
  | _, .boolean false => exact run_bare rfl ht
  -- An open bracket takes one level of the room, and its frame one place on the stack.
  | room + 1, .array items =>
    have hitems := run_items items r stack [] (t :: rest) h (by omega)
    rw [Value.tokens, List.cons_append, List.append_assoc, run_cons (value_openBracket (by omega))]
    exact hitems.trans (run_ended _)
  | room + 1, .table members =>
    have hmembers := run_members members r stack [] (t :: rest) h.2 (by omega) h.1
    rw [Value.tokens, List.cons_append, List.append_assoc, run_cons (value_openBrace (by omega))]
    exact hmembers.trans (run_ended _)

/-- The tokens of further items complete an array. -/
theorem run_items (items : List Value) (r : Reader) (stack : List Frame) (done : List Value)
    (rest : List Token) {room : Nat} (h : ItemsPlain room items)
    (hroom : stack.length + room ≤ maxNesting) :
    (r.goto (.value (.array done :: stack))).run
        ([.comma].intercalate (itemTokens items) ++ ([.closeBracket] ++ rest)) =
      (r.goto (.ended stack (.array (done.reverse ++ items)))).run rest := by
  have hlength : (Frame.array done :: stack).length + room ≤ maxNesting + 1 := by
    rw [List.length_cons]
    omega
  -- The first item and the only one differ in the token after them.
  match items with
  | [] =>
    rw [List.append_nil]
    exact run_cons rfl
  | [item] =>
    rw [itemTokens, itemTokens, List.intercalate_singleton,
      List.singleton_append, run_tokens item r _ rest h.1 hlength .closeBracket]
    show (r.goto (.ended stack (.array (item :: done).reverse))).run rest = _
    rw [List.reverse_cons]
  | item :: next :: items =>
    have hnext := run_items (next :: items) r stack (item :: done) rest h.2 hroom
    rw [itemTokens, itemTokens, List.intercalate_cons_cons, List.append_assoc, List.append_assoc,
      List.singleton_append, run_tokens item r _ _ h.1 hlength .comma]
    rw [List.reverse_cons, List.append_assoc] at hnext
    exact hnext

/-- The tokens of further members complete a table. -/
theorem run_members (members : List (String × Value)) (r : Reader) (stack : List Frame)
    (done : List (String × Value)) (rest : List Token) {room : Nat}
    (h : MembersPlain room members) (hroom : stack.length + room ≤ maxNesting)
    (hkeys : ((done ++ members).map Prod.fst).Nodup) :
    (r.goto (.inlineKey stack (childrenOf done) [])).run
        ([.comma].intercalate (memberTokens members) ++ ([.closeBrace] ++ rest)) =
      (r.goto (.ended stack (.table (done ++ members)))).run rest := by
  match members with
  | [] =>
    rw [List.append_nil]
    show (r.goto (.ended stack (.table (membersOf (childrenOf done))))).run rest = _
    rw [membersOf_childrenOf]
  | (key, value) :: others =>
    -- A key written twice is refused, so that no key stands among those read before it.
    have hnew := key_not_mem_of_nodup hkeys
    have hmember {t : Token} (ht : EndsValue t) (rest : List Token) :
        (r.goto (.inlineKey stack (childrenOf done) [])).run
            ((Token.string false key :: .equals :: value.tokens) ++ t :: rest) =
          (r.ended (.table (childrenOf done) [] key :: stack) value t).bind (·.run rest) := by
      have hlength : (Frame.table (childrenOf done) [] key :: stack).length + room ≤
          maxNesting + 1 := by
        rw [List.length_cons]
        omega
      exact (run_cons rfl).trans ((run_cons rfl).trans
        (run_tokens value r _ rest h.1 hlength ht))
    -- As with items, the last member and the others differ in the token after them.
    match others with
    | [] =>
      rw [memberTokens, memberTokens, List.intercalate_singleton, List.singleton_append,
        hmember .closeBrace, ended_closeBrace hnew]
      rfl
    | next :: members =>
      have hdone : (done ++ [(key, value)]) ++ next :: members =
          done ++ (key, value) :: next :: members := List.append_assoc ..
      have hnext := run_members (next :: members) r stack (done ++ [(key, value)]) rest h.2 hroom
        (hdone ▸ hkeys)
      rw [hdone] at hnext
      rw [memberTokens, memberTokens, List.intercalate_cons_cons, List.append_assoc,
        List.append_assoc, List.singleton_append, hmember .comma, ended_comma hnew]
      exact hnext

end

/-! ## 4. Reading lines -/

/-- A line puts its value at the end of the table. -/
theorem run_line {done : List (String × Value)} {key : String} {value : Value} {room : Nat}
    (hkey : key ∉ done.map Prod.fst) (h : value.Plain room) (hroom : room ≤ maxNesting)
    (rest : List Token) :
    (⟨childrenOf done, [], .lineStart⟩ : Reader).run
        (.string false key :: .equals :: (value.tokens ++ .lineBreak :: rest)) =
      (⟨childrenOf (done ++ [(key, value)]), [], .lineStart⟩ : Reader).run rest := by
  have hvalue := run_tokens value ⟨childrenOf done, [], .lineStart⟩ [.line [] key] rest h
    (by rw [List.length_singleton]; omega) .lineBreak
  have hended : (⟨childrenOf done, [], .lineStart⟩ : Reader).ended [.line [] key] value
      .lineBreak = some ⟨childrenOf (done ++ [(key, value)]), [], .lineStart⟩ := by
    show ((((define key value (childrenOf done)).map _).map _) : Option Reader) = _
    rw [define_childrenOf hkey]
    rfl
  rw [hended] at hvalue
  exact (run_cons rfl).trans ((run_cons rfl).trans hvalue)

theorem run_lineTokens {done members : List (String × Value)} {room : Nat}
    (hkeys : ((done ++ members).map Prod.fst).Nodup) (h : MembersPlain room members)
    (hroom : room ≤ maxNesting) :
    (⟨childrenOf done, [], .lineStart⟩ : Reader).run (lineTokens members) =
      some ⟨childrenOf (done ++ members), [], .lineStart⟩ := by
  induction members generalizing done with
  | nil =>
    rw [List.append_nil]
    rfl
  | cons m members ih =>
    have hnew := key_not_mem_of_nodup hkeys
    have hdone : (done ++ [m]) ++ members = done ++ m :: members := List.append_assoc ..
    rw [lineTokens_cons]
    show Reader.run _ (.string false m.1 :: .equals :: _) = _
    rw [run_line hnew h.1 hroom, ih (hdone ▸ hkeys) h.2, hdone]

end Reader

/-- The tokens of lines are read as the table, if no key stands in it twice. -/
theorem ofText?_of_tokens? {text : String} {members : List (String × Value)} {room : Nat}
    (htokens : tokens? text = some (lineTokens members)) (hkeys : (members.map Prod.fst).Nodup)
    (h : MembersPlain room members) (hroom : room ≤ Reader.maxNesting) :
    ofText? text = some members := by
  have hrun := Reader.run_lineTokens (show (([] ++ members).map Prod.fst).Nodup from hkeys) h hroom
  unfold ofText?
  rw [htokens]
  show ((Reader.mk (childrenOf []) [] .lineStart).run (lineTokens members)).bind _ = _
  rw [hrun]
  show some (membersOf (childrenOf members)) = _
  rw [membersOf_childrenOf]

theorem ofText?_text {members : List (String × Value)} {room : Nat}
    (hkeys : (members.map Prod.fst).Nodup) (h : MembersPlain room members)
    (hroom : room ≤ Reader.maxNesting) : ofText? (text members) = some members :=
  ofText?_of_tokens? (tokens?_text h) hkeys h hroom

end AdmissionGate.Toml
