import SqlDialects.Tree.Expr

/-! What a walk that replaces names can meet in a tree: columns without a qualifier, and the places of operands that
stand in several, each with what is met in it. -/

namespace SqlDialects

inductive Outline
  | name (pos : Position) (ident : Ident)
  | place (place : Place) (inside : List Outline)

mutual

def Expr.outline : Expr → List Outline
  | .column pos [ident] => [.name pos ident]
  | .column .. | .star .. | .literal .. | .param .. => []
  | .binary _ _ left right => left.outline ++ right.outline
  | .call c => c.outline
  | .window _ function partitionBy orderBy frame =>
    function.outline ++ exprOutlines partitionBy ++ orderOutlines orderBy ++ frameOutlines frame
  | .caseWhen _ operand arms otherwise => optionOutlines operand ++ armOutlines arms ++ optionOutlines otherwise
  | .between _ operand low high _ => operand.outline ++ low.outline ++ high.outline
  | .inList _ operand members _ => operand.outline ++ exprOutlines members
  | .inQuery _ operand query _ => operand.outline ++ query.outline
  | .existsQuery _ query _ | .subquery _ query => query.outline
  | .array _ elems => exprOutlines elems
  | .map _ keys values => exprOutlines keys ++ exprOutlines values
  | .struct _ _ values => exprOutlines values
  | .subscript _ operand index => operand.outline ++ index.outline
  | .unary _ _ e | .cast _ e .. | .isValue _ e .. | .interval _ e _ | .lambda _ _ e | .extract _ _ e => e.outline
  | .repeated place operand => [.place place operand.outline]

def Call.outline : Call → List Outline
  | ⟨_, _, args, _, orderBy, filter⟩ => exprOutlines args ++ orderOutlines orderBy ++ optionOutlines filter

def exprOutlines : List Expr → List Outline
  | [] => []
  | e :: es => e.outline ++ exprOutlines es

def optionOutlines : Option Expr → List Outline
  | none => []
  | some e => e.outline

def orderOutlines : List OrderItem → List Outline
  | [] => []
  | ⟨e, _, _⟩ :: rest => e.outline ++ orderOutlines rest

def armOutlines : List When → List Outline
  | [] => []
  | ⟨condition, result⟩ :: rest => condition.outline ++ result.outline ++ armOutlines rest

def frameOutlines : Option Frame → List Outline
  | none => []
  | some ⟨_, first, last⟩ => first.outline ++ boundOutlines last

def boundOutlines : Option FrameBound → List Outline
  | none => []
  | some bound => bound.outline

def FrameBound.outline : FrameBound → List Outline
  | ⟨_, offset⟩ => optionOutlines offset

def Query.outline : Query → List Outline
  | .select s => s.outline
  | .setOp _ _ _ left right orderBy limit =>
    left.outline ++ right.outline ++ orderOutlines orderBy ++ optionOutlines limit

def Select.outline : Select → List Outline
  | ⟨_, ctes, _, items, source, lateralViews, condition, groupBy, having, orderBy, limit, offset⟩ =>
    cteOutlines ctes ++ itemOutlines items ++ sourceOutlines source ++ viewOutlines lateralViews ++
      optionOutlines condition ++ exprOutlines groupBy ++ optionOutlines having ++ orderOutlines orderBy ++
      optionOutlines limit ++ optionOutlines offset

def cteOutlines : List Cte → List Outline
  | [] => []
  | ⟨_, _, body⟩ :: rest => body.outline ++ cteOutlines rest

def CteBody.outline : CteBody → List Outline
  | .query q => q.outline
  | .scalar e => e.outline

def itemOutlines : List SelectItem → List Outline
  | [] => []
  | ⟨e, _⟩ :: rest => e.outline ++ itemOutlines rest

def viewOutlines : List LateralView → List Outline
  | [] => []
  | ⟨_, function, _, _, _⟩ :: rest => function.outline ++ viewOutlines rest

def sourceOutlines : Option TableExpr → List Outline
  | none => []
  | some t => t.outline

def TableExpr.outline : TableExpr → List Outline
  | .ref .. => []
  | .derived _ query _ => query.outline
  | .function _ call _ => call.outline
  | .join _ _ left right condition _ => left.outline ++ right.outline ++ optionOutlines condition

end

end SqlDialects
