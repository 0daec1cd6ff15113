import Maple.Json

/-! What a share link publishes of a dashboard: the accessors that read a data source of either
schema version, and the projection of the stored document. -/

namespace Maple.DashboardShare

open Json

/-! ## Reading a data source -/

inductive ResultShape
  | timeseries
  | breakdown
  | list
deriving Repr, DecidableEq

def ResultShape.text : ResultShape → String
  | .timeseries => "timeseries"
  | .breakdown => "breakdown"
  | .list => "list"

def queryResultEndpoints : List (ResultShape × String) :=
  [(.timeseries, "custom_query_builder_timeseries"), (.breakdown, "custom_query_builder_breakdown"),
    (.list, "custom_query_builder_list")]

def queryEndpointResultKinds (endpoint : String) : Option ResultShape :=
  (queryResultEndpoints.find? fun entry => entry.2 == endpoint).map Prod.fst

def rawSqlEndpoint : String := "raw_sql_chart"

inductive RedactedKind
  | query
  | rawSql
  | route
  | static
deriving Repr, DecidableEq

def RedactedKind.text : RedactedKind → String
  | .query => "query"
  | .rawSql => "raw_sql"
  | .route => "route"
  | .static => "static"

structure RedactedDataSource where
  kind : RedactedKind
  resultShape : Option String
  transform : Option Json

def RedactedDataSource.toJson (dataSource : RedactedDataSource) : Json :=
  .object (record [("kind", some (.string dataSource.kind.text)),
    ("resultShape", dataSource.resultShape.map .string), ("transform", dataSource.transform)])

structure ShareWidgetInput where
  id : String
  visualization : Json
  display : Option Json
  layout : Json
  sectionId : Option String
  tabId : Option String
  timeRange : Option Json
  dataSource : Json

def ShareWidgetInput.toJson (widget : ShareWidgetInput) : Json :=
  .object (record [("id", some (.string widget.id)), ("visualization", some widget.visualization),
    ("dataSource", some widget.dataSource), ("display", widget.display),
    ("layout", some widget.layout), ("timeRange", widget.timeRange),
    ("sectionId", widget.sectionId.map .string), ("tabId", widget.tabId.map .string)])

def isLetter (c : Char) : Bool := ('A' ≤ c && c ≤ 'Z') || ('a' ≤ c && c ≤ 'z')

end Maple.DashboardShare
