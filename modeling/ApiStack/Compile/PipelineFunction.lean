import ApiStack.Compile.Handler

namespace ApiStack.Compile

open Config

def dataSourceName (name : String) : Json :=
  Intrinsic.getAtt (LogicalId.dataSource name) "Name"

def pipelineFunction (context : Context) (api : Api) (f : PipelineFunction) : Build Graph := do
  let owner := "Pipeline Function '" ++ f.name ++ "'"
  if !api.dataSources.contains f.dataSource then throw (.unknownDataSource owner f.dataSource)
  let handler ← handlerSettings context api owner f.handler f.substitutions none
  let sync ← syncEntry f.sync (FunctionName.pipelineFunctionSync f.name)
  return .singleton (LogicalId.pipelineFunction f.name)
    (.make "AWS::AppSync::FunctionConfiguration" (.obj (
      [("ApiId", apiId),
        ("Name", .str f.name),
        ("DataSourceName", dataSourceName f.dataSource),
        ("Description", .ofOption .str f.description),
        ("FunctionVersion", .str "2018-05-29"),
        ("MaxBatchSize", .ofOption .nat f.maxBatchSize)]
      ++ handler ++ sync)))

end ApiStack.Compile
