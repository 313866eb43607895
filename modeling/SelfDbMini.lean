import SelfDbMini.Frontend.PlainObject
import SelfDbMini.Frontend.PageControls
import SelfDbMini.Frontend.CreateTable
import SelfDbMini.Frontend.RowBodies
import SelfDbMini.Frontend.QuickView
import SelfDbMini.Frontend.AuthSession
import SelfDbMini.Frontend.AuthInterleaving
import SelfDbMini.Frontend.Dashboard
import SelfDbMini.Frontend.InfiniteList
import SelfDbMini.Frontend.ListSequential
import SelfDbMini.Frontend.TableDetail
import SelfDbMini.Frontend.DetailSync
import SelfDbMini.Frontend.DetailPaging
import SelfDbMini.Frontend.ListInterleaving
