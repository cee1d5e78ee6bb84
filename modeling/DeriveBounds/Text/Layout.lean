/-!
Laying texts out: joining with a separator, filling up to a column, grouping digits.
-/
namespace DeriveBounds.Text

/-- The parts with the separator between neighbours. -/
def join (separator : String) : List String → String
  | [] => ""
  | part :: rest => rest.foldl (fun done next => done ++ separator ++ next) part

@[simp] theorem join_nil (separator : String) : join separator [] = "" := rfl

@[simp] theorem join_singleton (separator part : String) : join separator [part] = part := rfl

private theorem foldl_join_append (separator done part : String) (rest : List String) :
    rest.foldl (fun done next => done ++ separator ++ next) (done ++ part) =
      done ++ rest.foldl (fun done next => done ++ separator ++ next) part := by
  induction rest generalizing part with
  | nil => rfl
  | cons next rest ih =>
    rw [List.foldl_cons, List.foldl_cons, ← ih, String.append_assoc, String.append_assoc,
      String.append_assoc]

/-- A part that is not the last is followed by the separator. -/
theorem join_cons_cons (separator part next : String) (rest : List String) :
    join separator (part :: next :: rest) = part ++ separator ++ join separator (next :: rest) :=
  foldl_join_append separator (part ++ separator) next rest

/-- Lists of names read `-` when they are empty. -/
def joinOr (fallback separator : String) (parts : List String) : String :=
  if join separator parts = "" then fallback else join separator parts

/-- Fills a text with spaces on the right up to `width` characters; a longer one is kept whole. -/
def padRight (width : Nat) (text : String) : String :=
  text ++ String.ofList (List.replicate (width - text.length) ' ')

/-- A comma after every third digit that is not the last, counted from the front. -/
def groupDigits : List Char → List Char
  | a :: b :: c :: d :: rest => a :: b :: c :: ',' :: groupDigits (d :: rest)
  | digits => digits

/-- A number with its digits in groups of three. -/
def grouped (n : Int) : String :=
  (if n < 0 then "-" else "") ++
    String.ofList (groupDigits (toString n.natAbs).toList.reverse).reverse

end DeriveBounds.Text
