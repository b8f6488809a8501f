import OpHeaders.Header.Documentation
import OpHeaders.Header.Registration
import OpHeaders.Text.UpperCase

/-! The text of a header: a banner with the include guard, the operators of a catalog in
order, and the end of the guard. -/
namespace OpHeaders.Header

open Schema

/-- The macro that guards a header against being included twice. -/
def guardMacro (start base : String) : List Char :=
  Text.upperCase (start.toList ++ base.toList ++ "_h".toList)

/-- Documentation and registration of an operator. -/
def operatorLines (op : Operator) : List (List Char) := documentation op ++ registration op

def bannerLines (guardName : List Char) (base : String) : List (List Char) :=
  ["/*".toList,
   " * Copyright (c) Huawei Technologies Co., Ltd. 2018-2022. All rights reserved.".toList,
   " * Description: ".toList ++ base.toList,
   " */".toList,
   "#ifndef ".toList ++ guardName,
   "#define ".toList ++ guardName,
   "#include \"graph/operator_hiai_reg.h\"".toList,
   [],
   "// clang-format off".toList,
   "namespace hiai \x7b".toList,
   []]

def closingLines : List (List Char) :=
  ["\x7d // namespace hiai".toList, "// clang-format on".toList, [], "#endif".toList]

/-- The lines of the header of a catalog; an empty line follows every operator. -/
def headerLines (catalog : Catalog) (start base : String) : List (List Char) :=
  bannerLines (guardMacro start base) base ++
    catalog.operators.flatMap (fun op => operatorLines op ++ [[]]) ++ closingLines

def operatorText (op : Operator) : String := String.ofList (Text.unlines (operatorLines op))

def headerText (catalog : Catalog) (start base : String) : String :=
  String.ofList (Text.unlines (headerLines catalog start base))

end OpHeaders.Header
